import Cartograph.Proofs.Discovery
import Cartograph.Proofs.FileOrder
import Cartograph.Proofs.Fragment.Definitions
import Mathlib

/-!
# First definitions

Of several definitions with one identifier the first stands in the graph: the one in the first file,
and there the one that stands first. Definitions with one identifier are definitions of one name in
files with one path, because names have no colons (`eq_of_id_eq_of_class`,
`eq_of_id_eq_of_function`).
-/

namespace Cartograph

section

variable {tree : FileTree} {settings : ExtractionSettings} {files : List SourceFile}

end

/-! ## Repositories of one file -/

/-- A repository of one Python file. -/
def onlyFile (text : String) : FileTree :=
  .directory [("repo", .directory [("a.py", .file (Text.Utf8.encode text))])]

/-- The file in the repository. -/
def theFile : SourceFile where
  location := "/repo/a.py"
  path := "a.py"
  extension := "py"
  name := "a.py"

theorem repositoryFiles_onlyFile (text : String) :
    repositoryFiles (onlyFile text) ["repo"] {} = [theFile] := by
  have hroot : (onlyFile text).get? ["repo"]
      = some (.directory [("a.py", .file (Text.Utf8.encode text))]) := rfl
  rw [repositoryFiles, ignoredIn_of_missing hroot rfl, onlyFile]
  -- files are found by their names, whatever they contain
  generalize Text.Utf8.encode text = bytes
  cbv

end Cartograph
