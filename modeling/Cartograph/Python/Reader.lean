import Cartograph.Python.Grammar.Statement

/-!
# Reading Python files

`Tree.ofText` gives every text a tree: the statements that could be read, and a fault where reading
stopped. A text is well-formed exactly when its tree has no fault.
-/

namespace Cartograph.Python

/-- The rules of the grammar, each at most `fuel` steps above the ones it refers to. -/
def read : Nat → Rules
  | 0, _, c => stuck c
  | fuel + 1, goal, c =>
    match goal with
    | .expression p fresh => expression (read fuel) p fresh fuel c
    | .part p fresh => part (read fuel) p fresh fuel c
    | .operand p fresh => operand (read fuel) p fresh fuel c
    | .typeHint p bounded => typeHint (read fuel) p bounded c
    | .value p => value (read fuel) p fuel c
    | .field p => field (read fuel) p fuel c
    | .casePattern p fresh => casePattern (read fuel) p fresh fuel c
    | .simplePattern p fresh => simplePattern (read fuel) p fresh fuel c
    | .suite indent => suite (read fuel) indent fuel c
    | .statement indent => statement (read fuel) indent fuel c

/-- The form that marks a fault. -/
def Fault.tree (fault : Fault) : Tree :=
  .node (if fault.atEnd then .missing else .fault) fault.line []

/-- The statements of a file, last first, and the fault where reading stopped. -/
def fileStatements (rules : Rules) : Nat → List Tree → Cursor → List Tree
  | 0, acc, c => c.fault.tree :: acc
  | n + 1, acc, c =>
    if c.token = .ending then acc
    else match rules (.statement 0) c with
      | .ok (t, d) => fileStatements rules n (t :: acc) d
      | .error fault => fault.tree :: acc

/-- How many steps reading a text of this length may take. -/
def fuelFor (length : Nat) : Nat :=
  8 * length + 64

/-- The tree of a text. -/
def Tree.ofText (cs : List Char) : Tree :=
  let fuel := fuelFor cs.length
  .node .module 1 (fileStatements (read fuel) fuel [] (Cursor.begin cs)).reverse

end Cartograph.Python
