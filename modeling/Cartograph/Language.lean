import Cartograph.Text.Case
import Cartograph.Text.Sorted

/-!
# Languages

The families of languages that files are told apart by. A family owns extensions; files that no
family owns are looked into as files of any language.
-/

namespace Cartograph

/-- A family of languages with a way of its own to look into files. -/
inductive Language where
  | python
  | script
  | generic
  deriving DecidableEq, Inhabited, Repr

namespace Language

/-- The families that own extensions. -/
def dedicated : List Language :=
  [.python, .script]

/-- The name that a reader is shown. -/
def title : Language → String
  | .python => "Python"
  | .script => "JavaScript/TypeScript"
  | .generic => "Generic"

/-- The extensions that a family owns. -/
def extensions : Language → List String
  | .python => ["py", "pyi"]
  | .script => ["js", "jsx", "ts", "tsx", "mjs", "cjs"]
  | .generic => []

/-- All owned extensions in order. -/
def knownExtensions : List String :=
  Text.sorted (dedicated.flatMap extensions)

/-- The family that owns an extension, whatever its letter case. -/
def owner? (extension : String) : Option Language :=
  dedicated.find? fun language => language.extensions.contains (Text.lower extension)

/-- The family of files with an extension. -/
def ofExtension (extension : String) : Language :=
  (owner? extension).getD .generic

/-- How many bytes of a file are read at most; `genericLimit` is for files of any language. -/
def readLimit? (genericLimit : UInt64) : Language → Option UInt64
  | .generic => some genericLimit
  | _ => none

end Language

end Cartograph
