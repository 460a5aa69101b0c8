import Cartograph.Python.Token
import Cartograph.Python.Tree

/-!
# Places in a Python file

A cursor stands at a token. It knows the line of the token and, if a line break comes right before
it, how far the line is indented; what the break means is for the grammar to say. Moving on passes
over blanks, comments and joined lines.
-/

namespace Cartograph.Python

/-! ## Between tokens -/

/-- What lies between two tokens, as far as it has been passed over. -/
structure Gap where
  line : Nat
  position : Nat
  /-- The width of the blanks since the last line break, if there was one. -/
  indent : Option Nat := none
  /-- Blanks still count for the width. -/
  counting : Bool := true
  /-- There was a comment or a joined line. -/
  remarked : Bool := false
  deriving Inhabited, Repr

namespace Gap

/-- A line break. -/
def newline (gap : Gap) : Gap :=
  { gap with
    line := gap.line + 1, position := gap.position + 1, indent := some 0, counting := true }

/-- A blank that makes the line `width` wider. -/
def blank (gap : Gap) (width : Nat) : Gap :=
  { gap with
    position := gap.position + 1
    indent := if gap.counting then gap.indent.map (· + width) else gap.indent }

/-- A character that takes the width back to nothing. -/
def reset (gap : Gap) : Gap :=
  { gap with
    position := gap.position + 1
    indent := if gap.counting then gap.indent.map fun _ => 0 else gap.indent }

/-- A character of no width, after which blanks do not count. -/
def invisible (gap : Gap) : Gap :=
  { gap with position := gap.position + 1, counting := false }

/-- A character of a comment. -/
def remark (gap : Gap) : Gap :=
  { gap with position := gap.position + 1, remarked := true }

/-- A backslash that joins the next line; `length` characters. -/
def joined (gap : Gap) (length : Nat) : Gap :=
  { gap with line := gap.line + 1, position := gap.position + length, remarked := true }

/-- The end of the text, which counts as a line break. -/
def finish (gap : Gap) : Gap :=
  { gap with indent := some 0 }

/-- Passes over what separates tokens and gives the characters from the next token on. -/
def pass (gap : Gap) (inComment : Bool) : List Char → Gap × List Char
  | [] => (gap.finish, [])
  | '\\' :: '\r' :: '\n' :: cs =>
    if inComment then pass (gap.remark.remark.newline) false cs else pass (gap.joined 3) false cs
  | '\\' :: '\n' :: cs =>
    if inComment then pass (gap.remark.newline) false cs else pass (gap.joined 2) false cs
  | ['\\'] => (gap.remark.finish, [])
  | c :: cs =>
    if c = '\n' then pass gap.newline false cs
    else if inComment then
      if c = '\x00' then (gap, c :: cs) else pass gap.remark true cs
    else if c = ' ' then pass (gap.blank 1) false cs
    else if c = '\t' then pass (gap.blank 8) false cs
    else if c = '\r' || c = '\x0c' then pass gap.reset false cs
    else if c = '\x0b' || c = '\ufeff' || c = '\u2060' || c = '\u200b' then
      pass gap.invisible false cs
    else if c = '#' then pass gap.remark true cs
    else (gap, c :: cs)

end Gap

/-! ## Cursors -/

/-- A place at a token. -/
structure Cursor where
  token : Token
  /-- The line of the token, counted from one. -/
  line : Nat
  /-- How far the line is indented, if a line break comes right before the token. -/
  indent : Option Nat
  /-- A comment or a joined line comes right before the token. -/
  remarked : Bool
  /-- How many characters come before the token. -/
  start : Nat
  /-- How many characters come before the end of the token. -/
  stop : Nat
  /-- The characters from the token on. -/
  text : List Char
  /-- The characters after the token. -/
  rest : List Char
  deriving Inhabited, Repr

/-- A place where a text cannot be read on. -/
structure Fault where
  line : Nat
  position : Nat
  /-- The text ends here. -/
  atEnd : Bool
  deriving Inhabited, Repr

namespace Cursor

/-- The cursor at the first token of some characters. -/
def enter (line position : Nat) (cs : List Char) : Cursor :=
  let (gap, text) := Gap.pass { line, position } false cs
  let (token, length) := Token.read text
  { token, line := gap.line, indent := gap.indent, remarked := gap.remarked,
    start := gap.position, stop := gap.position + length, text, rest := text.drop length }

/-- The cursor at the first token of a file. -/
def begin (cs : List Char) : Cursor :=
  match cs with
  | '\ufeff' :: rest => { Cursor.enter 1 1 rest with indent := none }
  | cs => { Cursor.enter 1 0 cs with indent := none }

/-- The cursor at the next token. -/
def next (c : Cursor) : Cursor :=
  Cursor.enter c.line c.stop c.rest

/-- The fault of being at this place. -/
def fault (c : Cursor) : Fault :=
  { line := c.line, position := c.start, atEnd := c.token = .ending }

/-- The token is this operator. -/
def isOp (c : Cursor) (text : String) : Bool :=
  c.token = .op text

/-- The token is this word. -/
def isWord (c : Cursor) (text : String) : Bool :=
  c.token = .word text

/-- The token opens a string and has no flags. -/
def opensPlainString (c : Cursor) : Bool :=
  match c.text with
  | q :: _ => q = '"' || q = '\'' || q = '`'
  | [] => false

/-- The same place with the line break before it forgotten. -/
def afterBracket (c : Cursor) : Cursor :=
  { c with indent := none }

/-- The characters from the start of this token to the end of another. -/
def textTo (c last : Cursor) : String :=
  String.ofList (c.text.take (last.stop - c.start))

end Cursor

end Cartograph.Python
