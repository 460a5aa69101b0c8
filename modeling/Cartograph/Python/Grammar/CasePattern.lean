import Cartograph.Python.Grammar.Strings

/-!
# Patterns of a `case`

Values, names, sequences, mappings and classes, alternatives between them, and a name for the whole.
Only strings in a pattern can hold something that the library looks for.
-/

namespace Cartograph.Python

/-- Patterns up to a closing bracket; last first. -/
def patternsUntil (rules : Rules) (p : Place) (close : String) :
    Nat → List Tree → Cursor → Except Fault (List Tree × Cursor)
  | 0, _, c => stuck c
  | n + 1, acc, c =>
    if c.isOp close then .ok (acc, c.next)
    else match rules (.casePattern p true) c with
      | .error f => .error f
      | .ok (t, d) =>
        if d.isOp close then .ok (t :: acc, d.next)
        else if d.isOp "," then patternsUntil rules p close n (t :: acc) d.next.afterBracket
        else stuck d

/-- One entry of a mapping pattern. -/
def mappingEntry (rules : Rules) (p : Place) (acc : List Tree) (c : Cursor) :
    Except Fault (List Tree × Cursor) :=
  match rules (.simplePattern p true) c with
  | .error f => .error f
  | .ok (key, d) =>
    if c.isOp "*" || c.isOp "**" then .ok (key :: acc, d)
    else do
      let d ← needOp p.inner ":" d
      let (value, d) ← rules (.casePattern p false) d
      return (value :: key :: acc, d)

/-- The entries of a mapping pattern up to the closing brace; last first. -/
def mappingEntries (rules : Rules) (p : Place) :
    Nat → List Tree → Cursor → Except Fault (List Tree × Cursor)
  | 0, _, c => stuck c
  | n + 1, acc, c =>
    if c.isOp "\x7d" then .ok (acc, c.next)
    else match mappingEntry rules p acc c with
      | .error f => .error f
      | .ok (acc, d) =>
        if d.isOp "\x7d" then .ok (acc, d.next)
        else if d.isOp "," then mappingEntries rules p n acc d.next.afterBracket
        else stuck d

/-- A number, which may be the sum of a real and an imaginary one. -/
def numberPattern (p : Place) (c : Cursor) : Reading :=
  if c.token = .number then
    let d := c.next
    if (d.isOp "+" || d.isOp "-") && !d.cutOff p && d.next.token = .number then
      .ok (.node .other c.line [], d.next.next)
    else .ok (.node .other c.line [], d)
  else stuck c

/-- A pattern without alternatives. -/
def simplePattern (rules : Rules) (p : Place) (fresh : Bool) (n : Nat) (c : Cursor) : Reading :=
  if c.misplaced p fresh then stuck c
  else match c.token with
  | .number => numberPattern p c
  | .stringStart _ => strings rules p c.line n [] c
  | .word w =>
    if w = "None" || w = "True" || w = "False" then .ok (.node .other c.line [], c.next)
    else
      match dottedName p n c with
      | .error f => .error f
      | .ok (_, d) =>
        if d.isOp "(" && !d.cutOff p then
          match patternsUntil rules p.inBrackets ")" n [] d.next.afterBracket with
          | .ok (ts, e) => .ok (.node .other c.line ts.reverse, e)
          | .error f => .error f
        else .ok (.node .other c.line [], d)
  | .op text =>
    if text = "-" then numberPattern p c.next
    else if text = "*" || text = "**" then
      match needName p c.next with
      | .ok (_, d) => .ok (.node .other c.line [], d)
      | .error f => .error f
    else if text = "[" then
      match patternsUntil rules p.inBrackets "]" n [] c.next.afterBracket with
      | .ok (ts, d) => .ok (.node .other c.line ts.reverse, d)
      | .error f => .error f
    else if text = "(" then
      match patternsUntil rules p.inBrackets ")" n [] c.next.afterBracket with
      | .ok (ts, d) => .ok (.node .other c.line ts.reverse, d)
      | .error f => .error f
    else if text = "\x7b" then
      match mappingEntries rules p.inBrackets n [] c.next.afterBracket with
      | .ok (ts, d) => .ok (.node .other c.line ts.reverse, d)
      | .error f => .error f
    else stuck c
  | _ => stuck c

/-- Alternatives and names for the whole, after a pattern. -/
def patternTail (rules : Rules) (p : Place) (line : Nat) : Nat → List Tree → Cursor → Reading
  | 0, _, c => stuck c
  | n + 1, acc, c =>
    if c.cutOff p then .ok (wrap line acc, c)
    else if c.isOp "|" then
      match rules (.simplePattern p false) c.next with
      | .ok (t, d) => patternTail rules p line n (t :: acc) d
      | .error f => .error f
    else if c.isWord "as" then
      match needName p c.next with
      | .ok (_, d) => patternTail rules p line n acc d
      | .error f => .error f
    else .ok (wrap line acc, c)

/-- The word gives a name to the pattern after it. -/
def namesPattern (c : Cursor) : Bool :=
  match c.token with
  | .word w => !(w = "None" || w = "True" || w = "False") && c.next.isOp "="
  | _ => false

/-- A pattern of a `case`. -/
def casePattern (rules : Rules) (p : Place) (fresh : Bool) (n : Nat) (c : Cursor) : Reading :=
  let first :=
    if namesPattern c then rules (.simplePattern p false) c.next.next
    else rules (.simplePattern p fresh) c
  match first with
  | .ok (t, d) => patternTail rules p c.line n [t] d
  | .error f => .error f

end Cartograph.Python
