import Cartograph.Imports.Resolver
import Cartograph.Imports.Table
import Cartograph.SourceFile

/-!
# Relative modules

A script file names another by a path that begins with a dot and counts from its own directory. The
extension may be left out, and a directory stands for the index file in it. A name that does not
begin with a dot means no file of the repository.
-/

namespace Cartograph.Relative

/-! ## Joining paths -/

/-- Follows segments from a directory, given by its segments from the last on. Nothing is above the
first. -/
def follow (above : List String) : List String → Option (List String)
  | [] => some above
  | segment :: rest =>
    if segment = "" ∨ segment = "." then follow above rest
    else if segment = ".." then
      match above with
      | _ :: above => follow above rest
      | [] => none
    else follow (segment :: above) rest

/-- The path that a relative path means in a directory, unless it leads out of the repository. -/
def joinPath? (directory relative : String) : Option String :=
  (follow [] (Text.splitText '/' directory ++ Text.splitText '/' relative)).map fun above =>
    Text.joinText '/' above.reverse

/-- The directory of the file with this identifier. -/
def directoryOf (source : String) : String :=
  let path := (Text.stripStart? source "file:").getD source
  Text.joinText '/' (Text.splitText '/' path).dropLast

/-! ## Names of files -/

/-- The name of the file that stands for its directory. -/
def indexEnding : String :=
  "/index"

/-- The path without its script extension. -/
def withoutExtension (path : String) : String :=
  (Language.script.extensions.findSome? fun e => Text.stripEnd? path ("." ++ e)).getD path

/-- The paths by which a file may be meant. -/
def keys (path : String) : List String :=
  let short := withoutExtension path
  path :: short :: (Text.stripEnd? short indexEnding).toList

/-- The paths that are tried for a path, in order. -/
def candidates (path : String) : List String :=
  path :: Language.script.extensions.map fun e => path ++ "." ++ e

/-! ## The resolver -/

/-- The files of a repository by the paths that may mean them; the last file counts. -/
def index (files : List SourceFile) : Table :=
  Table.lastWins (files.flatMap fun file => (keys file.path).map fun key => (key, file.id))

/-- The file that is meant by a name in the file `source`. -/
def resolveIn (table : Table) (source target : String) : Option String :=
  if Text.startsWith target "." then
    match joinPath? (directoryOf source) target with
    | some path => (candidates path).findSome? fun candidate => table[candidate]?
    | none => none
  else none

/-- The resolver for some files. -/
def resolver (files : List SourceFile) : Resolver :=
  let table := index files
  { language := .script
    owned := Std.HashSet.ofList (files.map SourceFile.id)
    resolve := resolveIn table }

end Cartograph.Relative
