import Cartograph.Fragment
import Cartograph.Pattern
import Cartograph.Text.Sorted

/-!
# Files of any language

What a file of no particular language contributes: its node and whatever looks like an import in one
of several languages. Only the front of such a file is read.
-/

namespace Cartograph.Generic

open Pattern Text

/-! ## Ways to import -/

/-- A way to import something, and how what it names is written as a path. -/
structure ImportShape where
  pattern : Pattern
  target : String → String := id

/-- An included header. -/
def includeShape : Pattern :=
  text "#include" ++ blanks ++ one (fun c => c = '<' || c = '"')
    ++ capture (run 1 fun c => c != '>' && c != '"') ++ one fun c => c = '>' || c = '"'

/-- A used namespace with dots. -/
def usingShape : Pattern :=
  text "using" ++ gap ++ capture (run 1 fun c => isWord c || c = '.') ++ blanks ++ text ";"

/-- A used name with colons or backslashes. -/
def useShape : Pattern :=
  text "use" ++ gap ++ capture (run 1 fun c => isWord c || c = ':' || c = '\\') ++ blanks
    ++ text ";"

/-- A plain import, quoted or not, in parentheses or not. -/
def importShape : Pattern :=
  text "import" ++ gap ++ optional (text "(" ++ blanks) ++ run 0 (fun c => c = '"' || isBlank c)
    ++ capture (run 1 fun c => isWord c || c = '/' || c = '.' || c = '-')
    ++ one fun c => c = '"' || c = ')' || isBlank c

/-- A name with every double colon turned into a slash. -/
def slashed : List Char → List Char
  | ':' :: ':' :: rest => '/' :: slashed rest
  | c :: rest => c :: slashed rest
  | [] => []

/-- All ways to import. -/
def shapes : List ImportShape :=
  [{ pattern := includeShape }, { pattern := usingShape },
    { pattern := useShape, target := fun s => String.ofList (slashed s.toList) },
    { pattern := importShape }]

/-! ## Files -/

/-- What a text imports, in order and each once. -/
def importTargets (text : List Char) : List String :=
  sorted (shapes.flatMap fun shape =>
    (shape.pattern.firstCaptures text).map fun found => shape.target found.2)

/-- What a file with this text contributes. -/
def fragment (file : SourceFile) (text : List Char) : Graph :=
  (importTargets text).foldl (Graph.addImport file) file.bareFragment

end Cartograph.Generic
