import Cartograph.Python.Cursor

/-!
# Reading by rules

A reader takes a form off a place in a text and says where the text goes on, or where it cannot be
read. The rules of the grammar refer to one another through `Goal`: a rule is given a reader for
every goal and builds a reader of its own from them.

Line breaks have no token. A break ends a statement wherever the statement may end; everywhere else
it is a blank, except that a line indented less than its block cannot go on with what came before,
unless a bracket may close there.
-/

namespace Cartograph.Python

/-- What is known about the surroundings of a form. -/
structure Place where
  /-- How far the block is indented. -/
  indent : Nat
  /-- A bracket may close after the form. -/
  bracketed : Bool := false
  /-- A line break after the form ends the statement. -/
  ends : Bool := false
  /-- An `if` after the form belongs to what is around it. -/
  bare : Bool := false
  /-- The form says what a name holds. -/
  typed : Bool := false
  deriving Inhabited, Repr

namespace Place

/-- In the middle of a statement, outside brackets. -/
def inner (p : Place) : Place :=
  { indent := p.indent }

/-- Between brackets. -/
def inBrackets (p : Place) : Place :=
  { indent := p.indent, bracketed := true, typed := p.typed }

end Place

/-- A form with the place after it, or the place where reading stopped. -/
abbrev Reading := Except Fault (Tree × Cursor)

/-- Takes a form off a place. -/
abbrev Reader := Cursor → Reading

/-- The rules that other rules refer to. -/
inductive Goal where
  /-- An expression. `fresh` says that a bracket may close in front of it. -/
  | expression (place : Place) (fresh : Bool)
  /-- An expression without a condition and without `and` and `or` after it. -/
  | part (place : Place) (fresh : Bool)
  /-- An operand of an operator. -/
  | operand (place : Place) (fresh : Bool)
  /-- What a name holds. It may be `bounded` by another such form after a colon. -/
  | typeHint (place : Place) (bounded : Bool)
  /-- What a name is set to. -/
  | value (place : Place)
  /-- A field of a formatted string, after its opening brace and up to its closing one. -/
  | field (place : Place)
  /-- A pattern of a `case`. -/
  | casePattern (place : Place) (fresh : Bool)
  /-- A pattern of a `case` without alternatives. -/
  | simplePattern (place : Place) (fresh : Bool)
  /-- What stands after the colon of a header in a block with the given indentation. -/
  | suite (indent : Nat)
  /-- A statement in a block with the given indentation. -/
  | statement (indent : Nat)
  deriving Inhabited, Repr

/-- A reader for every goal. -/
abbrev Rules := Goal → Reader

/-! ## Building readings -/

/-- Reading cannot go on here. -/
def stuck {α : Type} (c : Cursor) : Except Fault α :=
  .error c.fault

/-- The later of two faults. -/
def Fault.later (a b : Fault) : Fault :=
  if a.position < b.position then b else a

/-- The second reading where the first fails; if both fail, the later fault. -/
def orElse {α : Type} (first : Except Fault α) (second : Unit → Except Fault α) :
    Except Fault α :=
  match first with
  | .ok a => .ok a
  | .error f =>
    match second () with
    | .ok a => .ok a
    | .error g => .error (f.later g)

/-- A form of no interest around its parts; a lone part stands for itself. The parts come last
first. -/
def wrap (line : Nat) : List Tree → Tree
  | [t] => t
  | parts => .node .other line parts.reverse

namespace Cursor

/-- The statement ends in front of this token. -/
def ended (c : Cursor) (p : Place) : Bool :=
  p.ends && c.indent.isSome

/-- The token is on a line that is indented less than the block. -/
def slips (c : Cursor) (indent : Nat) : Bool :=
  match c.indent with
  | some width => width < indent
  | none => false

/-- The token is out of reach after a form: the statement ends, or the line is indented less than
the block and no bracket may close. -/
def cutOff (c : Cursor) (p : Place) : Bool :=
  c.ended p || (!p.bracketed && c.slips p.indent)

/-- The token cannot begin a form: its line is indented less than the block, no bracket may close,
and it is no quote. -/
def misplaced (c : Cursor) (p : Place) (fresh : Bool) : Bool :=
  !fresh && c.slips p.indent && !c.opensPlainString

/-- The token ends a simple statement. -/
def endsSimple (c : Cursor) : Bool :=
  c.indent.isSome || c.isOp ";"

end Cursor

/-! ## Single tokens -/

/-- An operator that has to stand here. -/
def needOp (p : Place) (text : String) (c : Cursor) : Except Fault Cursor :=
  if c.isOp text && !c.cutOff p then .ok c.next else stuck c

/-- A word that has to stand here. -/
def needWord (p : Place) (text : String) (c : Cursor) : Except Fault Cursor :=
  if c.isWord text && !c.cutOff p then .ok c.next else stuck c

/-- A name that has to stand here. Every word is a name where only a name can stand. -/
def needName (p : Place) (c : Cursor) : Except Fault (String × Cursor) :=
  match c.token with
  | .word text => if c.slips p.indent then stuck c else .ok (text, c.next)
  | _ => stuck c

/-- The words that are no names where an operand can stand. -/
def isReserved (word : String) : Bool :=
  word = "None" || word = "True" || word = "False" || word = "lambda" || word = "not"

/-- The words that go on after an operand. -/
def goesOn (word : String) : Bool :=
  ["if", "else", "and", "or", "in", "is", "not", "as", "for", "from", "import"].contains word

/-- The token may begin an operand. -/
def startsOperand (c : Cursor) : Bool :=
  match c.token with
  | .word w => !goesOn w
  | .number => true
  | .stringStart _ => true
  | .op text => ["(", "[", "\x7b", "-", "+", "~", "*", "..."].contains text
  | _ => false

/-- More names of a dotted name, up to its last token; `last` is that token so far. -/
def dottedTail (p : Place) : Nat → Cursor → Cursor → Except Fault (Cursor × Cursor)
  | 0, _, c => stuck c
  | n + 1, last, c =>
    if c.isOp "." && !c.cutOff p then
      match needName p c.next with
      | .ok (_, after) => dottedTail p n c.next after
      | .error f => .error f
    else .ok (last, c)

/-- A dotted name as it is written. -/
def dottedName (p : Place) (n : Nat) (c : Cursor) : Except Fault (String × Cursor) := do
  let (_, after) ← needName p c
  let (last, rest) ← dottedTail p n c after
  return (c.textTo last, rest)

/-! ## Targets -/

/-- What may stand after a star in a target. -/
def isPlainTarget (t : Tree) : Bool :=
  match t.form with
  | .name _ => true
  | .attribute _ => true
  | .subscript => true
  | _ => false

mutual

/-- The form may be set: a name, an attribute, an item, or a bracket or a star around such. -/
def isTarget : Tree → Bool
  | .node form _ parts =>
    match form with
    | .name _ => true
    | .attribute _ => true
    | .subscript => true
    | .splat => parts.all isPlainTarget
    | .tuple => areTargets parts
    | .list => areTargets parts
    | .parenthesized => areTargets parts
    | _ => false

/-- All forms may be set. -/
def areTargets : List Tree → Bool
  | [] => true
  | t :: ts => isTarget t && areTargets ts

end

/-- Puts a star in front of the form below the calls on the outside: `*a.b()` calls `*a.b`. -/
def starUnder (line : Nat) : Tree → Option Tree
  | .node .call l (callee :: arguments) =>
    (starUnder line callee).map fun inner => .node .call l (inner :: arguments)
  | t => if isPlainTarget t then some (.node .splat line [t]) else none

end Cartograph.Python
