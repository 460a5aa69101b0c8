import Cartograph.Generic.Entities
import Cartograph.Language
import Cartograph.Python.Entities
import Cartograph.Script.Entities

/-!
# Fragments by language

Every family of languages turns the text of a file into a fragment in its own way. Only a Python
file can be refused.
-/

namespace Cartograph

/-- What a file with this text contributes, read as a file of the family. -/
def Language.fragment (language : Language) (file : SourceFile) (text : List Char) :
    Except ExtractionError Graph :=
  match language with
  | .python => Python.fragment file text
  | .script => .ok (Script.fragment file text)
  | .generic => .ok (Generic.fragment file text)

/-- The family of a file. -/
def SourceFile.language (file : SourceFile) : Language :=
  Language.ofExtension file.extension

end Cartograph
