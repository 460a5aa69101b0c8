import Cartograph.Python.Grammar.Basic

/-!
# Strings

The characters of a string up to the quote that ends it. An escape is passed over as a whole; in a
formatted string every field in braces is read as an expression, and its part of the tree is kept.
A line break ends a string of single quotes unless it comes right after the opening quote, an escape
or a field.
-/

namespace Cartograph.Python

/-! ## Escapes -/

/-- There are `n` hexadecimal digits in front. -/
def hexAhead (n : Nat) (cs : List Char) : Bool :=
  let ds := cs.take n
  ds.length = n && ds.all Token.isHexDigit

/-- The length of a character given by name, from its opening brace on; zero if it is none. -/
def namedLength : List Char → Nat
  | '\x7b' :: cs =>
    let name := cs.takeWhile (· ≠ '\x7d')
    if name.isEmpty || name.length = cs.length then 0 else name.length + 2
  | _ => 0

/-- How many characters after a backslash belong to its escape. -/
def escapeLength : List Char → Nat
  | [] => 0
  | '\r' :: '\n' :: _ => 2
  | c :: cs =>
    if c = '\n' then 1
    else if ['\'', '"', 'a', 'b', 'f', 'r', 'n', 't', 'v', '\\'].contains c then 1
    else if c = 'u' then if hexAhead 4 cs then 5 else 0
    else if c = 'U' then if hexAhead 8 cs then 9 else 0
    else if c = 'x' then if hexAhead 2 cs then 3 else 0
    else if c = 'N' then if namedLength cs = 0 then 0 else namedLength cs + 1
    else ((c :: cs).take 3).takeWhile Text.isAsciiDigit |>.length

/-- How many characters after a backslash it takes along in a raw string: a quote or another
backslash, and a line break. -/
def rawLength (quote : Char) (cs : List Char) : Nat :=
  let mark :=
    match cs with
    | c :: _ => if c = quote || c = '\\' then 1 else 0
    | [] => 0
  match cs.drop mark with
  | '\r' :: '\n' :: _ => mark + 2
  | '\r' :: _ => mark + 1
  | '\n' :: _ => mark + 1
  | _ => mark

/-- The backslash takes along the two characters after it: in bytes, where these letters begin no
escape. -/
def isLetterOfText : List Char → Bool
  | c :: _ => c = 'N' || c = 'u' || c = 'U'
  | [] => false

/-! ## Places inside a string -/

/-- A place inside a string. -/
structure Inside where
  line : Nat
  position : Nat
  rest : List Char
  deriving Inhabited

namespace Inside

/-- The place `n` characters further on. -/
def advance (s : Inside) (n : Nat) : Inside :=
  let passed := s.rest.take n
  { line := s.line + passed.count '\n', position := s.position + passed.length,
    rest := s.rest.drop n }

/-- The fault of being at this place. -/
def fault (s : Inside) : Fault :=
  { line := s.line, position := s.position, atEnd := s.rest.isEmpty }

/-- The cursor at the next token after this place. -/
def cursor (s : Inside) : Cursor :=
  Cursor.enter s.line s.position s.rest

end Inside

/-- The place right after a token. -/
def Cursor.inside (c : Cursor) : Inside :=
  { line := c.line, position := c.stop, rest := c.rest }

/-! ## String bodies -/

/-- The fields of a string, last first, and the place after its closing quote. `plain` says that
plain characters come right before. -/
def stringBody (rules : Rules) (p : Place) (style : StringStyle) :
    Nat → Bool → List Tree → Inside → Except Fault (List Tree × Inside)
  | 0, _, _, s => .error s.fault
  | n + 1, plain, fields, s =>
    match s.rest with
    | [] => .error s.fault
    | c :: rest =>
      if c = '\x00' then .error s.fault
      else if style.formatted && c = '\x7b' then
        if rest.head? = some '\x7b' then stringBody rules p style n false fields (s.advance 2)
        else match rules (.field p) (s.advance 1).cursor with
          | .ok (field, after) => stringBody rules p style n false (field :: fields) after.inside
          | .error f => .error f
      else if style.formatted && c = '\x7d' then
        if rest.head? = some '\x7d' then stringBody rules p style n false fields (s.advance 2)
        else .error s.fault
      else if c = '\\' then
        if style.raw then
          stringBody rules p style n plain fields (s.advance (1 + rawLength style.quote rest))
        else if style.bytes && isLetterOfText rest then
          stringBody rules p style n true fields (s.advance 3)
        else stringBody rules p style n false fields (s.advance (1 + escapeLength rest))
      else if c = style.quote then
        if style.triple then
          if rest.take 2 = [style.quote, style.quote] then .ok (fields, s.advance 3)
          else if rest.head? = some style.quote then
            stringBody rules p style n false fields (s.advance 2)
          else stringBody rules p style n false fields (s.advance 1)
        else .ok (fields, s.advance 1)
      else if c = '\n' && plain && !style.triple then .error s.fault
      else stringBody rules p style n true fields (s.advance 1)

/-- One string; its fields come in front of `fields`, last first. -/
def oneString (rules : Rules) (p : Place) (n : Nat) (fields : List Tree) (c : Cursor) :
    Except Fault (List Tree × Cursor) :=
  match c.token with
  | .stringStart style =>
    match stringBody rules p style n false fields c.inside with
    | .ok (fields, after) => .ok (fields, after.cursor)
    | .error f => .error f
  | _ => stuck c

/-- Strings next to one another, as one form around their fields. -/
def strings (rules : Rules) (p : Place) (line : Nat) : Nat → List Tree → Cursor → Reading
  | 0, _, c => stuck c
  | n + 1, fields, c =>
    match oneString rules p n fields c with
    | .error f => .error f
    | .ok (fields, d) =>
      match d.token with
      | .stringStart _ =>
        if d.ended p || (!p.bracketed && d.misplaced p false) then
          .ok (.node .other line fields.reverse, d)
        else strings rules p line n fields d
      | _ => .ok (.node .other line fields.reverse, d)

/-! ## Fields -/

/-- The layout of a field, after its colon and up to the closing brace. Fields in it are kept. -/
def layout (rules : Rules) (p : Place) :
    Nat → List Tree → Inside → Except Fault (List Tree × Cursor)
  | 0, _, s => .error s.fault
  | n + 1, fields, s =>
    match s.rest with
    | [] => .error s.fault
    | c :: _ =>
      if c = '\x00' then .error s.fault
      else if c = '\x7b' then
        match rules (.field p) (s.advance 1).cursor with
        | .ok (field, after) => layout rules p n (field :: fields) after.inside
        | .error f => .error f
      else if c = '\x7d' then .ok (fields, s.cursor)
      else layout rules p n fields (s.advance 1)

/-- What comes after the expression of a field, up to the closing brace. -/
def fieldEnd (rules : Rules) (p : Place) (n : Nat) (line : Nat) (parts : List Tree) (c : Cursor) :
    Reading :=
  let c := if c.isOp "=" then c.next else c
  let c := if c.token = .conversion then c.next else c
  if c.isOp "\x7d" then .ok (.node .other line parts.reverse, c)
  else if c.isOp ":" || c.isOp ":=" then
    let s : Inside := { line := c.line, position := c.start + 1, rest := c.text.drop 1 }
    match layout rules p n parts s with
    | .ok (parts, after) => .ok (.node .other line parts.reverse, after)
    | .error f => .error f
  else stuck c

end Cartograph.Python
