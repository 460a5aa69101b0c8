import Cartograph.FilePath
import Cartograph.Graph.Entity
import Cartograph.Role

/-!
# Source files

A file found in a repository: where it is, its path below the root of the repository, its name and
its extension. Its node is the same whether or not the file can be read.
-/

namespace Cartograph

/-- A file of a repository. -/
structure SourceFile where
  /-- Where the file is. -/
  location : RawText
  /-- The path below the root of the repository, as it is shown. -/
  path : String
  /-- The extension in lowercase, without its dot; empty if there is none. -/
  extension : String
  /-- The name, as it is shown. -/
  name : String
  deriving DecidableEq, Inhabited, Repr

namespace SourceFile

/-- The file at `location` in the repository at `root`. -/
def under (root location : RawText) : SourceFile where
  location := location
  path := FilePath.ofParts (FilePath.relativeParts (FilePath.parts root) (FilePath.parts location))
  extension := Text.lower (((FilePath.extension? location).map RawText.shown).getD "")
  name := ((FilePath.fileName? location).map RawText.shown).getD ""

/-- The identifier of the file's node. -/
def id (file : SourceFile) : String :=
  fileId file.path

/-- The extension as a reader is shown it, with its dot. -/
def dottedExtension (file : SourceFile) : String :=
  if file.extension.isEmpty then "" else "." ++ file.extension

/-- The node of the file. -/
def node (file : SourceFile) : Node where
  id := file.id
  label := file.name
  kind := Role.classify file.path file.name file.extension
  path := file.path
  metadata := [("extension", .str file.dottedExtension)]

end SourceFile

end Cartograph
