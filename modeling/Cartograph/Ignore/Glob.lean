import Cartograph.Text.Utf8

/-!
# Globs

A glob describes paths. A star stands for any text within a name, a question mark for one byte of
it, a class for one byte out of several, and braces for one of several globs. Two stars between
separators, or at either end, stand for any number of directories. Names are compared byte by byte,
so a character outside ASCII in a class is as good as its bytes.

A glob is read into tokens. What a list of tokens matches is told by what may be left of a path when
the tokens have been taken off its front.
-/

namespace Cartograph

/-- A range of bytes, both ends included. -/
structure ByteRange where
  low : UInt8
  high : UInt8
  deriving DecidableEq, Inhabited, Repr

/-- A piece of a glob. -/
inductive GlobToken where
  /-- These bytes. -/
  | bytes (text : List UInt8)
  /-- One byte that is no separator. -/
  | anyByte
  /-- Any bytes that are no separators. -/
  | anyName
  /-- Any directories in front, or none. -/
  | leadingDirectories
  /-- A separator and whatever follows. -/
  | trailingDirectories
  /-- A separator, or several with directories between them. -/
  | innerDirectories
  /-- One byte in the ranges, or one that is in none. -/
  | oneOf (negated : Bool) (ranges : List ByteRange)
  /-- One of several lists of tokens. -/
  | branches (choices : List (List GlobToken))
  deriving Inhabited, Repr

namespace Glob

/-! ## Classes -/

/-- The ranges of bytes that a range of characters stands for. Of a character of several bytes all
but the one next to the range mark stand for themselves. -/
def byteRanges (first last : Char) : List ByteRange :=
  let a := Text.Utf8.encode (String.singleton first)
  let b := Text.Utf8.encode (String.singleton last)
  let single (byte : UInt8) : ByteRange := ⟨byte, byte⟩
  if first = last then a.map single
  else a.dropLast.map single ++ [⟨a.getLast?.getD 0, b.head?.getD 0⟩] ++ b.tail.map single

/-- How a class ends. -/
inductive ClassEnd where
  | closed (ranges : List (Char × Char)) (rest : List Char)
  /-- There is no closing bracket. -/
  | unclosed
  /-- A range runs backwards. -/
  | backwards

/-- The ranges of a class from a place inside it; `ranges` holds what is read so far, last first. -/
def readClass (atStart inRange : Bool) (ranges : List (Char × Char)) : List Char → ClassEnd
  | [] => .unclosed
  | c :: rest =>
    if c = ']' && !atStart then
      .closed (if inRange then ('-', '-') :: ranges else ranges).reverse rest
    else if c = '-' && !atStart && !inRange then readClass false true ranges rest
    else
      match inRange, ranges with
      | true, (low, _) :: before =>
        if c < low then .backwards else readClass false false ((low, c) :: before) rest
      | _, _ => readClass false false ((c, c) :: ranges) rest

/-! ## Reading -/

/-- How far a glob is read. Lists of tokens are kept last token first. -/
structure Progress where
  /-- The tokens of the branch being read. -/
  current : List GlobToken := []
  /-- For every open brace the finished branches, last first, and the tokens before the brace. -/
  braces : List (List (List GlobToken) × List GlobToken) := []
  /-- The character before. -/
  previous : Option Char := none
  /-- A bracket was not closed, so that further brackets stand for themselves. -/
  brackets : Bool := true

namespace Progress

/-- One more token. -/
def push (p : Progress) (token : GlobToken) : Progress :=
  { p with current := token :: p.current }

/-- One more character that stands for itself. -/
def literal (p : Progress) (c : Char) : Progress :=
  p.push (.bytes (Text.Utf8.encode (String.singleton c)))

/-- The next character is `c`. -/
def after (p : Progress) (c : Char) : Progress :=
  { p with previous := some c }

/-- A brace opens. -/
def openBrace (p : Progress) : Progress :=
  { p with current := [], braces := ([], p.current) :: p.braces }

/-- The next branch begins; outside of braces the comma stands for itself. -/
def nextBranch (p : Progress) : Progress :=
  match p.braces with
  | [] => p.literal ','
  | (branches, before) :: more =>
    { p with current := [], braces := (p.current.reverse :: branches, before) :: more }

/-- A brace closes. -/
def closeBrace (p : Progress) : Option Progress :=
  match p.braces with
  | [] => none
  | (branches, before) :: more =>
    some { p with
      current := .branches (p.current.reverse :: branches).reverse :: before, braces := more }

/-- Two stars that stand for no more than one. -/
def twoStars (p : Progress) : Progress :=
  (p.push .anyName).push .anyName

/-- The last token gives way to directories, unless it stands for directories itself. -/
def directories (p : Progress) (token : GlobToken) : Progress :=
  match p.current with
  | .leadingDirectories :: _ => p
  | .trailingDirectories :: _ => p
  | _ :: before => { p with current := token :: before }
  | [] => p.push token

/-- Two stars, the second right before `rest`, after the character `before`. -/
def stars (p : Progress) (before : Option Char) (rest : List Char) : Progress × List Char :=
  if p.current.isEmpty then
    match rest with
    | [] => (p.push .leadingDirectories, [])
    | '/' :: more => ((p.push .leadingDirectories).after '/', more)
    | _ => (p.twoStars, rest)
  else if before != some '/' && (p.braces.isEmpty || (before != some ',' && before != some '\x7b'))
  then (p.twoStars, rest)
  else
    match rest with
    | [] => (p.directories .trailingDirectories, [])
    | '/' :: more => ((p.directories .innerDirectories).after '/', more)
    | c :: _ =>
      if !p.braces.isEmpty && (c = ',' || c = '\x7d') then
        (p.directories .trailingDirectories, rest)
      else (p.twoStars, rest)

end Progress

/-- The token of a class. -/
def classToken (negated : Bool) (ranges : List (Char × Char)) : GlobToken :=
  .oneOf negated (ranges.flatMap fun r => byteRanges r.1 r.2)

/-- Whether a class is negated, and the text after the mark of that. -/
def takeNegation : List Char → Bool × List Char
  | '!' :: rest => (true, rest)
  | '^' :: rest => (true, rest)
  | cs => (false, cs)

/-- Reads a glob to its end; `fuel` bounds the number of steps. -/
def readFrom : Nat → Progress → List Char → Option (List GlobToken)
  | 0, _, _ => none
  | _ + 1, p, [] => if p.braces.isEmpty then some p.current.reverse else none
  | fuel + 1, p, c :: rest =>
    if c = '?' then readFrom fuel ((p.push .anyByte).after c) rest
    else if c = '*' then
      match rest with
      | '*' :: more =>
        let (q, left) := (p.after '*').stars p.previous more
        readFrom fuel q left
      | _ => readFrom fuel ((p.push .anyName).after c) rest
    else if c = '[' && p.brackets then
      let (negated, inside) := takeNegation rest
      match readClass true false [] inside with
      | .closed ranges left => readFrom fuel ((p.push (classToken negated ranges)).after ']') left
      | .unclosed => readFrom fuel { p.literal '[' with previous := some c, brackets := false } rest
      | .backwards => none
    else if c = '\x7b' then readFrom fuel (p.openBrace.after c) rest
    else if c = '\x7d' then
      match p.closeBrace with
      | some q => readFrom fuel (q.after c) rest
      | none => none
    else if c = ',' then readFrom fuel (p.nextBranch.after c) rest
    else if c = '\\' then
      match rest with
      | d :: more => readFrom fuel ((p.literal d).after d) more
      | [] => none
    else readFrom fuel ((p.literal c).after c) rest

/-- The tokens of a glob, or nothing if it is malformed. -/
def read? (glob : List Char) : Option (List GlobToken) :=
  readFrom (glob.length + 1) {} glob

/-! ## Matching -/

/-- The separator of names. -/
def separator : UInt8 :=
  47

/-- What may be left when bytes other than separators are taken off the front. -/
def afterName : List UInt8 → List (List UInt8)
  | [] => [[]]
  | b :: rest => if b = separator then [b :: rest] else (b :: rest) :: afterName rest

/-- What is left behind every separator. -/
def afterSeparators : List UInt8 → List (List UInt8)
  | [] => []
  | b :: rest => if b = separator then rest :: afterSeparators rest else afterSeparators rest

/-- Every end of a path. -/
def ends : List UInt8 → List (List UInt8)
  | [] => [[]]
  | b :: rest => (b :: rest) :: ends rest

/-- What is left when some bytes are taken off the front. -/
def afterBytes : List UInt8 → List UInt8 → List (List UInt8)
  | [], path => [path]
  | a :: as, b :: path => if a = b then afterBytes as path else []
  | _ :: _, [] => []

mutual

/-- The token stands for nothing at all. -/
def isVoid : GlobToken → Bool
  | .branches choices => areVoid choices
  | _ => false

/-- Every token of a branch stands for nothing at all. -/
def isVoidBranch : List GlobToken → Bool
  | [] => true
  | token :: rest => isVoid token && isVoidBranch rest

/-- Every branch is void. -/
def areVoid : List (List GlobToken) → Bool
  | [] => true
  | branch :: rest => isVoidBranch branch && areVoid rest

end

mutual

/-- What may be left of a path when the token is taken off its front. -/
def remainders (path : List UInt8) : GlobToken → List (List UInt8)
  | .bytes text => afterBytes text path
  | .anyByte =>
    match path with
    | b :: rest => if b = separator then [] else [rest]
    | [] => []
  | .anyName => afterName path
  | .leadingDirectories => path :: afterSeparators path
  | .trailingDirectories =>
    match path with
    | b :: rest => if b = separator then ends rest else []
    | [] => []
  | .innerDirectories =>
    match path with
    | b :: rest => if b = separator then rest :: afterSeparators rest else []
    | [] => []
  | .oneOf negated ranges =>
    match path with
    | b :: rest =>
      if (ranges.any fun r => r.low ≤ b && b ≤ r.high) != negated then [rest] else []
    | [] => []
  | .branches choices => if areVoid choices then [path] else choiceRemainders path choices

/-- What may be left of paths when tokens are taken off the front of each. -/
def allRemainders (paths : List (List UInt8)) : List GlobToken → List (List UInt8)
  | [] => paths
  | token :: rest => allRemainders (paths.flatMap fun path => remainders path token).eraseDups rest

/-- What may be left of a path when one of several branches is taken off its front. A void branch
counts for nothing beside others. -/
def choiceRemainders (path : List UInt8) : List (List GlobToken) → List (List UInt8)
  | [] => []
  | branch :: rest =>
    (if isVoidBranch branch then [] else allRemainders [path] branch) ++ choiceRemainders path rest

end

/-- The tokens match the whole path. Directories alone match everything. -/
def fits (path : List UInt8) : List GlobToken → Bool
  | [.leadingDirectories] => true
  | tokens => (allRemainders [path] tokens).any List.isEmpty

end Glob

end Cartograph
