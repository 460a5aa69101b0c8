import Cartograph.FileTree.Listing
import Cartograph.FileTree.Path
import Cartograph.Ignore.Rules
import Cartograph.Settings.Basic
import Cartograph.SourceFile

/-!
# Discovery

Which files of a repository are looked at, and in which order. Directories are passed over by their
names or by the rules of the ignore file, files by their extensions or by the same rules. A link to
a file counts as a file; a link to a directory is never followed.
-/

namespace Cartograph

/-- Tells of a path below the root, and of whether it is a directory, if it is ignored. -/
abbrev Ignored := RawText → Bool → Bool

/-! ## Deciding -/

/-- A directory below the root is entered. -/
def entersDirectory (settings : DiscoverySettings) (ignored : Ignored) (names : Place) : Bool :=
  !settings.skipsDirectory (names.getLast?.getD "").shown && !ignored (pathOf names) true

/-- What stands at a place below the root is a file, or a link to one. -/
def countsAsFile (tree : FileTree) (root names : Place) : FileTree → Bool
  | .file _ => true
  | .link _ => tree.isFileAt [] (locationOf (root ++ names))
  | .directory _ => false

/-- A file is looked at. The rules are asked about the path that is shown. -/
def wants (settings : DiscoverySettings) (ignored : Ignored) (file : SourceFile) : Bool :=
  !settings.isBinary file.extension && !ignored file.path false

/-! ## Finding -/

/-- The file at a place below the root. -/
def SourceFile.at (root names : Place) : SourceFile :=
  SourceFile.under (locationOf root) (locationOf (root ++ names))

/-- The files below the root that are looked at, in order. -/
def discover (tree : FileTree) (root : Place) (settings : DiscoverySettings) (ignored : Ignored) :
    List SourceFile :=
  match tree.get? root with
  | some start =>
    let found := start.listing (entersDirectory settings ignored)
    let files := found.filter fun entry => countsAsFile tree root entry.1 entry.2
    (files.map fun entry => SourceFile.at root entry.1).filter (wants settings ignored)
  | none => []

/-! ## The ignore file -/

/-- The name of the ignore file. -/
def ignoreFile : String :=
  ".gitignore"

/-- The rules of the ignore file of a repository, if it has one. -/
def ignoreRules? (tree : FileTree) (root : Place) : Option IgnoreRules :=
  match tree.readBytes root ignoreFile with
  | .ok bytes => some (IgnoreRules.ofBytes bytes)
  | .error _ => none

/-- What is ignored in a repository. -/
def ignoredIn (tree : FileTree) (root : Place) (settings : DiscoverySettings) : Ignored :=
  match if settings.heedsIgnoreFile then ignoreRules? tree root else none with
  | some rules => rules.ignores
  | none => fun _ _ => false

end Cartograph
