/-!
# Syntax trees of Python files

A tree of forms, each with the line on which it begins and its parts in the order of the text. Forms
that no rule of the library looks at are all `other`. A file that is not well-formed still has a
tree, with a fault in the place where reading stopped.

`visits` is the walk on which everything rests: every form before its parts, together with the
decorators that stand in front of it.
-/

namespace Cartograph.Python

/-! ## Forms -/

/-- What a node of a tree is. -/
inductive Form where
  /-- A whole file. -/
  | module
  /-- The statements under a header. -/
  | block
  /-- A class; its base classes are in an `arguments` part. -/
  | classDef (name : String)
  | functionDef (name : String) (isAsync : Bool)
  /-- Decorators, then the definition that they stand in front of. -/
  | decorated
  /-- One decorator; its first part is what decorates. -/
  | decorator
  | arguments
  /-- Imported modules (`import a.b, c`), with the names as they are written. -/
  | importModules (names : List String)
  /-- Imports out of a module (`from a.b import …`), with its name as it is written but for leading
  dots. -/
  | importFrom (name : Option String)
  /-- Imports out of `__future__`. -/
  | importFuture
  /-- A call: what is called, then the arguments. -/
  | call
  | name (text : String)
  /-- A name behind a dot; what stands before the dot is the only part. -/
  | attribute (name : String)
  | subscript
  | splat
  | tuple
  | list
  | parenthesized
  /-- A comment or a joined line that stands where a part is looked for. -/
  | remark
  | other
  /-- Something that cannot stand here. -/
  | fault
  /-- The end of the text where more has to follow. -/
  | missing
  deriving BEq, DecidableEq, Inhabited, Repr

/-- A form with its line and its parts. -/
inductive Tree where
  | node (form : Form) (line : Nat) (parts : List Tree)
  deriving Inhabited, Repr

namespace Tree

/-- What the tree is. -/
def form : Tree → Form
  | .node form _ _ => form

/-- The line on which the tree begins, counted from one. -/
def line : Tree → Nat
  | .node _ line _ => line

/-- The parts of the tree. -/
def parts : Tree → List Tree
  | .node _ _ parts => parts

/-! ## Walking -/

/-- A tree met on a walk, with the decorators in front of it. -/
structure Visit where
  decorators : List Tree
  tree : Tree

/-- The decorators among some parts. -/
def decoratorsOf (parts : List Tree) : List Tree :=
  parts.filter fun part => part.form = .decorator

/-- The decorators in front of the parts of a form. -/
def decoratorsFor (form : Form) (parts : List Tree) : List Tree :=
  if form = .decorated then decoratorsOf parts else []

mutual

/-- The tree, then all that is in it, in the order of the text. -/
def visits (decorators : List Tree) : Tree → List Visit
  | .node form line parts =>
    ⟨decorators, .node form line parts⟩ :: visitsAll (decoratorsFor form parts) parts

/-- The walks over some parts, one after the other. -/
def visitsAll (decorators : List Tree) : List Tree → List Visit
  | [] => []
  | part :: rest => visits decorators part ++ visitsAll decorators rest

end

/-! ## Faults -/

/-- A form that a well-formed file does not have. -/
def isFault (form : Form) : Bool :=
  form = .fault || form = .missing

mutual

/-- Somewhere in the tree is a fault. -/
def hasFault : Tree → Bool
  | .node form _ parts => isFault form || anyFault parts

/-- Somewhere in one of the trees is a fault. -/
def anyFault : List Tree → Bool
  | [] => false
  | part :: rest => hasFault part || anyFault rest

end

mutual

/-- The line of the first fault. Only parts with a fault in them are looked into. -/
def firstFault? : Tree → Option Nat
  | .node form line parts => if isFault form then some line else firstFaultAmong? parts

/-- The line of the first fault in one of the trees. -/
def firstFaultAmong? : List Tree → Option Nat
  | [] => none
  | part :: rest =>
    if hasFault part then
      match firstFault? part with
      | some line => some line
      | none => firstFaultAmong? rest
    else firstFaultAmong? rest

end

end Tree

end Cartograph.Python
