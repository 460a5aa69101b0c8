import Cartograph.Ignore.Glob
import Cartograph.Text.Blank
import Cartograph.Text.Raw
import Cartograph.Text.Split

/-!
# Ignore files

An ignore file states rules, one to a line. A rule says by a glob which paths are ignored, or with
an exclamation mark in front which are kept after all. Of all rules that fit a path the last counts.
A rule with a separator in front or inside is about whole paths, any other about the names at the
end of paths.
-/

namespace Cartograph

open Text

/-- A line of an ignore file. -/
structure IgnoreRule where
  glob : List GlobToken
  /-- The paths are kept. -/
  keeps : Bool
  /-- The rule is about directories only. -/
  directoriesOnly : Bool
  deriving Inhabited, Repr

namespace IgnoreRule

/-! ## Reading a line -/

/-- The line without white space at its end; a blank behind a backslash stays. -/
def withoutTrailingBlanks (line : List Char) : List Char :=
  if (stripTail? ['\\', ' '] line).isSome then line
  else (line.reverse.dropWhile isBlank).reverse

/-- What marks in front of a line say. -/
structure Front where
  keeps : Bool
  /-- The glob is about whole paths. -/
  anchored : Bool
  glob : List Char

/-- The glob without a separator in front. -/
def anchor (keeps : Bool) : List Char → Front
  | '/' :: rest => ⟨keeps, true, rest⟩
  | line => ⟨keeps, false, line⟩

/-- Reads the marks in front of a line. A backslash takes the meaning from a mark. -/
def front : List Char → Front
  | '\\' :: '!' :: rest => ⟨false, false, '!' :: rest⟩
  | '\\' :: '#' :: rest => ⟨false, false, '#' :: rest⟩
  | '!' :: rest => anchor true rest
  | line => anchor false line

/-- The glob without a separator at its end, and whether there was one. -/
def takeSlash (glob : List Char) : List Char × Bool :=
  match stripTail? ['/'] glob with
  | some before => ((stripTail? ['\\'] before).getD before, true)
  | none => (glob, false)

/-- The glob begins with any number of directories. -/
def beginsAnywhere (glob : List Char) : Bool :=
  glob = ['*', '*'] || (stripLead? ['*', '*', '/'] glob).isSome

/-- The glob for whole paths. A glob without separators may fit behind any directories, and one that
ends in any number of directories is only about what is in them. -/
def wholeGlob (anchored : Bool) (glob : List Char) : List Char :=
  let glob :=
    if anchored || glob.contains '/' || beginsAnywhere glob then glob
    else ['*', '*', '/'] ++ glob
  if (stripTail? ['/', '*', '*'] glob).isSome then glob ++ ['/', '*'] else glob

/-- The rule that a line states. Empty lines, remarks and malformed globs state none. -/
def ofLine? (line : List Char) : Option IgnoreRule :=
  if line.head? = some '#' then none
  else
    match withoutTrailingBlanks line with
    | [] => none
    | line =>
      let front := front line
      let (glob, directoriesOnly) := takeSlash front.glob
      (Glob.read? (wholeGlob front.anchored glob)).map fun tokens =>
        { glob := tokens, keeps := front.keeps, directoriesOnly }

/-- The rule fits a path. -/
def fits (rule : IgnoreRule) (path : List UInt8) (isDirectory : Bool) : Bool :=
  (!rule.directoriesOnly || isDirectory) && Glob.fits path rule.glob

end IgnoreRule

/-- The rules of an ignore file. -/
abbrev IgnoreRules := List IgnoreRule

namespace IgnoreRules

/-! ## Reading a file -/

/-- The bytes of the lines of a file, each with its line break. -/
def linesOf : List UInt8 → List (List UInt8)
  | [] => []
  | b :: rest =>
    if b = 10 then [b] :: linesOf rest
    else match linesOf rest with
      | [] => [[b]]
      | line :: lines => (b :: line) :: lines

/-- The line without its line break. -/
def withoutBreak (line : List Char) : List Char :=
  match stripTail? ['\r', '\n'] line with
  | some before => before
  | none => (stripTail? ['\n'] line).getD line

/-- The texts of lines up to the first that is no text. -/
def decodeLines : List (List UInt8) → List (List Char)
  | [] => []
  | line :: rest =>
    match Utf8.decode? line with
    | some text => withoutBreak text :: decodeLines rest
    | none => []

/-- The lines with marks of byte order taken off the front of the first. -/
def withoutByteOrder : List (List Char) → List (List Char)
  | [] => []
  | line :: rest => line.dropWhile (· = '\ufeff') :: rest

/-- The rules that a file states. What follows a line that is no text does not count. -/
def ofBytes (bytes : List UInt8) : IgnoreRules :=
  (withoutByteOrder (decodeLines (linesOf bytes))).filterMap IgnoreRule.ofLine?

/-! ## Deciding -/

/-- The path without a mark in front that says nothing. -/
def plainPath (path : RawText) : List UInt8 :=
  (stripLead? (Utf8.encode "./") path.bytes).getD path.bytes

/-- The path is ignored: the last rule that fits it does not keep it. -/
def ignores (rules : IgnoreRules) (path : RawText) (isDirectory : Bool) : Bool :=
  match rules.reverse.find? fun rule => rule.fits (plainPath path) isDirectory with
  | some rule => !rule.keeps
  | none => false

end IgnoreRules

end Cartograph
