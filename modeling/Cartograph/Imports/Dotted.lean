import Cartograph.Imports.Resolver
import Cartograph.Imports.Table
import Cartograph.SourceFile

/-!
# Dotted modules

Python names a module by the dotted path of its file. An import may leave out leading components,
and trailing ones may name something inside the module. So an import means the file of the longest
part from its front that is the dotted path of a file, or else the end of one.
-/

namespace Cartograph.Dotted

/-! ## Modules of files -/

/-- The name of the file that stands for its directory. -/
def packageFile : String :=
  "__init__"

/-- A path with its separators turned into dots. -/
def dots (path : String) : String :=
  String.ofList (path.toList.map fun c => if c = '/' || c = '\\' then '.' else c)

/-- The text without the first of the endings that it has. -/
def withoutEnding (s : String) (endings : List String) : String :=
  (endings.findSome? fun ending => Text.stripEnd? s ("." ++ ending)).getD s

/-- The dotted path of the module that a file is. -/
def modulePath (path : String) : String :=
  withoutEnding (withoutEnding (dots path) Language.python.extensions) [packageFile]

/-! ## Parts of dotted paths -/

/-- The lists that are left when components are dropped from the front; none is empty. -/
def tails : List String → List (List String)
  | [] => []
  | p :: ps => (p :: ps) :: tails ps

/-- The lists that are left when components are dropped from the end, the longest first; none is
empty. -/
def fronts (parts : List String) : List (List String) :=
  (List.range parts.length).reverse.map fun n => parts.take (n + 1)

/-- Every end of a dotted path, the whole path included. -/
def suffixes (module : String) : List String :=
  (tails (Text.splitText '.' module)).map (Text.joinText '.')

/-- Every front of a dotted path, from the whole path on. -/
def prefixes (module : String) : List String :=
  (fronts (Text.splitText '.' module)).map (Text.joinText '.')

/-! ## The resolver -/

/-- The files of a repository by the dotted paths of their modules. -/
structure Index where
  /-- By whole paths; the first file counts. -/
  modules : Table
  /-- By the ends of paths; the first file counts. -/
  suffixes : Table

/-- The index of some files. -/
def Index.ofFiles (files : List SourceFile) : Index where
  modules := Table.firstWins (files.map fun file => (modulePath file.path, file.id))
  suffixes := Table.firstWins (files.flatMap fun file =>
    (Dotted.suffixes (modulePath file.path)).map fun suffix => (suffix, file.id))

/-- The file with this dotted path, or else the one whose path ends in it. -/
def Index.find? (index : Index) (module : String) : Option String :=
  match index.modules[module]? with
  | some id => some id
  | none => index.suffixes[module]?

/-- The file of the longest front that has one. -/
def Index.resolve (index : Index) (module : String) : Option String :=
  (prefixes module).findSome? index.find?

/-- The resolver for some files. -/
def resolver (files : List SourceFile) : Resolver :=
  let index := Index.ofFiles files
  { language := .python
    owned := Std.HashSet.ofList (files.map SourceFile.id)
    resolve := fun _ module => index.resolve module }

end Cartograph.Dotted
