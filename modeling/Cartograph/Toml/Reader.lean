import Cartograph.Text.Word
import Cartograph.Toml.Scalar
import Cartograph.Toml.Table

/-!
# TOML documents, read

A document is a list of lines: assignments, headers, comments and blank lines. `read?` gives the
table that a document denotes, or nothing if it is not well-formed or states a key twice.
-/

namespace Cartograph.Toml

open Text

/-! ## Keys -/

/-- A character of a key without quotes. -/
def isBareKey (c : Char) : Bool :=
  isAsciiLetter c || isAsciiDigit c || c = '-' || c = '_'

/-- One part of a key, with the blanks around it. -/
def takeKeyPart (cs : List Char) : Option (String × List Char) := do
  let cs := skipSpaces cs
  let (part, rest) ← match cs with
    | '"' :: _ => takeShortString cs
    | '\'' :: _ => takeShortString cs
    | _ => match cs.span isBareKey with
      | ([], _) => none
      | (taken, rest) => some (String.ofList taken, rest)
  return (part, skipSpaces rest)

/-- How deep values may stand in each other, and how many parts a key may have. -/
def depthLimit : Nat :=
  79

/-- The parts of a key; `fuel` bounds their number. -/
def takeKeyParts : Nat → List Char → Option (List String × List Char)
  | 0, _ => none
  | fuel + 1, cs => do
    let (part, rest) ← takeKeyPart cs
    match rest with
    | '.' :: rest =>
      let (parts, rest) ← takeKeyParts fuel rest
      return (part :: parts, rest)
    | _ => return ([part], rest)

/-- A key, with or without dots. -/
def takeKey (cs : List Char) : Option (List String × List Char) :=
  takeKeyParts depthLimit cs

/-! ## Comments -/

/-- The text after a comment, if there is one here. -/
def skipComment : List Char → List Char
  | '#' :: rest => rest.dropWhile isPlain
  | cs => cs

/-- The text after the end of a line, before which blanks and a comment may stand. -/
def takeLineEnd (cs : List Char) : Option (List Char) :=
  match skipComment (skipSpaces cs) with
  | [] => some []
  | cs => takeBreak? cs

/-- The text after the end of a line that is blank or a comment, if it is one and has an end. -/
def skipBlankLine? (cs : List Char) : Option (List Char) :=
  takeBreak? (skipComment (skipSpaces cs))

theorem length_skipComment_le (cs : List Char) : (skipComment cs).length ≤ cs.length := by
  unfold skipComment
  split
  · exact Nat.le_succ_of_le (List.dropWhile_suffix isPlain).length_le
  · exact Nat.le_refl _

theorem length_of_skipBlankLine? {cs rest : List Char} (h : skipBlankLine? cs = some rest) :
    rest.length < cs.length := by
  have hspaces := length_skipSpaces_le cs
  have hcomment := length_skipComment_le (skipSpaces cs)
  have hbreak := length_of_takeBreak? h
  omega

/-- The text after blanks, line breaks and comments; every comment has to end with its line, and no
carriage return stands alone. -/
def skipFiller (cs : List Char) : Option (List Char) :=
  match h : skipBlankLine? cs with
  | some rest =>
    have := length_of_skipBlankLine? h
    skipFiller rest
  | none =>
    match skipSpaces cs with
    | '#' :: _ => none
    | '\r' :: _ => none
    | rest => some rest
  termination_by cs.length
  decreasing_by exact this

/-! ## Values -/

mutual

/-- A value in which arrays and tables may stand `depth` deep. -/
def takeValue : (fuel depth : Nat) → List Char → Option (Toml × List Char)
  | 0, _, _ => none
  | fuel + 1, depth, cs =>
    match cs with
    | '"' :: _ => (takeString cs).map fun (s, rest) => (.str s, rest)
    | '\'' :: _ => (takeString cs).map fun (s, rest) => (.str s, rest)
    | '[' :: rest =>
      match depth with
      | 0 => none
      | depth + 1 => (takeItems fuel depth rest).map fun (items, rest) => (.arr items, rest)
    | '\x7b' :: rest =>
      match depth with
      | 0 => none
      | depth + 1 => do
        let (assignments, rest) ← takeInline fuel depth rest
        return (.table (finishEntries (← fill [] assignments)), rest)
    | 't' :: 'r' :: 'u' :: 'e' :: rest => some (.bool true, rest)
    | 'f' :: 'a' :: 'l' :: 's' :: 'e' :: rest => some (.bool false, rest)
    | _ =>
      match takeMoment cs with
      | some found => some found
      | none => takeNumber cs

/-- Items up to the closing bracket. -/
def takeItems : (fuel depth : Nat) → List Char → Option (List Toml × List Char)
  | 0, _, _ => none
  | fuel + 1, depth, cs => do
    match ← skipFiller cs with
    | ']' :: rest => return ([], rest)
    | cs =>
      let (v, rest) ← takeValue fuel depth cs
      match ← skipFiller rest with
      | ',' :: rest =>
        let (items, rest) ← takeItems fuel depth rest
        return (v :: items, rest)
      | ']' :: rest => return ([v], rest)
      | _ => none

/-- Assignments on one line up to the closing brace. -/
def takeInline : (fuel depth : Nat) → List Char → Option (List Assignment × List Char)
  | 0, _, _ => none
  | fuel + 1, depth, cs =>
    match skipSpaces cs with
    | '\x7d' :: rest => some ([], rest)
    | cs => takePairs fuel depth cs

/-- Assignments on one line up to the closing brace; there has to be one. -/
def takePairs : (fuel depth : Nat) → List Char → Option (List Assignment × List Char)
  | 0, _, _ => none
  | fuel + 1, depth, cs => do
    let (key, rest) ← takeKey cs
    match rest with
    | '=' :: rest =>
      let (v, rest) ← takeValue fuel depth (skipSpaces rest)
      match skipSpaces rest with
      | ',' :: rest =>
        let (more, rest) ← takePairs fuel depth rest
        return ((key, v) :: more, rest)
      | '\x7d' :: rest => return ([(key, v)], rest)
      | _ => none
    | _ => none

end

/-! ## Lines -/

/-- An assignment that is a line of its own, after leading blanks. -/
def takeAssignment (cs : List Char) : Option (Assignment × List Char) := do
  let (key, rest) ← takeKey cs
  match rest with
  | '=' :: rest =>
    let (v, rest) ← takeValue (rest.length + 1) depthLimit (skipSpaces rest)
    return ((key, v), ← takeLineEnd rest)
  | _ => none

/-- A header that is a line of its own, after leading blanks. -/
def takeHeader : List Char → Option (Header × List Char)
  | '[' :: '[' :: cs => do
    let (path, rest) ← takeKey cs
    match rest with
    | ']' :: ']' :: rest => return (.row path, ← takeLineEnd rest)
    | _ => none
  | '[' :: cs => do
    let (path, rest) ← takeKey cs
    match rest with
    | ']' :: rest => return (.table path, ← takeLineEnd rest)
    | _ => none
  | _ => none

/-- A line that says something. -/
inductive Line where
  | header (header : Header)
  | assignment (assignment : Assignment)

/-- The lines of a document that say something; `fuel` bounds the number of lines. -/
def takeDocument : Nat → List Char → Option (List Line)
  | 0, _ => none
  | fuel + 1, cs =>
    match skipSpaces cs with
    | [] => some []
    | '#' :: rest => do takeDocument fuel (← takeLineEnd ('#' :: rest))
    | '[' :: rest => do
      let (header, rest) ← takeHeader ('[' :: rest)
      return .header header :: (← takeDocument fuel rest)
    | cs =>
      match takeBreak? cs with
      | some rest => takeDocument fuel rest
      | none => do
        let (assignment, rest) ← takeAssignment cs
        return .assignment assignment :: (← takeDocument fuel rest)

/-- The assignments before the first header, and every header with the assignments below it. -/
def sections : List Line → List Assignment × List (Header × List Assignment)
  | [] => ([], [])
  | .assignment a :: rest =>
    let (front, later) := sections rest
    (a :: front, later)
  | .header h :: rest =>
    let (front, later) := sections rest
    ([], (h, front) :: later)

/-- The table that a document denotes. A mark of byte order in front does not count. -/
def read? (cs : List Char) : Option Toml := do
  let cs := match cs with
    | '\ufeff' :: rest => rest
    | _ => cs
  let (front, rest) := sections (← takeDocument (cs.length + 1) cs)
  let entries ← rest.foldlM addSection (← fill [] front)
  return .table (finishEntries entries)

end Cartograph.Toml
