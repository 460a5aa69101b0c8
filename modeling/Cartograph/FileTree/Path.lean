import Cartograph.FilePath
import Cartograph.FileTree.Basic

/-!
# Paths in a file tree

A path leads from a directory to a place: `..` goes up, empty parts and `.` stay, and a link is
replaced by what it stands for. Only so many links are followed. The last name of a path need not be
there, so that a file can be made.

The real path of a directory is found step by step as well, but every place on the way is looked at
by its own absolute path, which may be too long although the path that leads there is not.
-/

namespace Cartograph

/-! ## Paths of places -/

/-- The path below a directory that names lead along. -/
def pathOf (names : Place) : RawText :=
  ⟨Text.glue FilePath.separator (names.map RawText.bytes)⟩

/-- The absolute path of a place. -/
def locationOf (place : Place) : RawText :=
  ("/" : RawText) ++ pathOf place

namespace FileTree

/-! ## Finding places -/

/-- How many links are followed on the way. -/
def linkLimit : Nat :=
  40

/-- How many bytes a name may have. -/
def nameLimit : Nat :=
  255

/-- How many bytes a path must be short of. -/
def pathLimit : Nat :=
  4096

/-- The parts of a path between separators. -/
def pathParts (path : RawText) : List RawText :=
  (Text.pieces FilePath.separator path.bytes).map RawText.mk

/-- Where a path begins that is seen from `here`. -/
def startOf (here : Place) (path : RawText) : Place :=
  if FilePath.isAbsolute path then [] else here

/-- The place to which parts of a path lead from the place `here`, which holds no link. Only places
within reach are looked at. Nothing need be at the place itself to which the parts lead. -/
def locateFrom (tree : FileTree) (reaches : Place → Bool) :
    (links : Nat) → Place → List RawText → Except FileError Place
  | _, here, [] => .ok here
  | links, here, part :: rest =>
    match (tree.get? here).bind entries? with
    | none => .error .notDirectory
    | some entries =>
      if part = "" ∨ part = "." then locateFrom tree reaches links here rest
      else if part = ".." then locateFrom tree reaches links here.dropLast rest
      else if nameLimit < part.size ∨ reaches (here ++ [part]) = false then .error .nameTooLong
      else
        match child? part entries with
        | some (.link target) =>
          match links with
          | 0 => .error .tooManyLinks
          | links + 1 =>
            locateFrom tree reaches links (startOf here target) (pathParts target ++ rest)
        | some _ => locateFrom tree reaches links (here ++ [part]) rest
        | none => if rest = [] then .ok (here ++ [part]) else .error .missing
  termination_by links _ parts => (links, parts.length)

/-- A system that goes from directory to directory reaches every place. -/
def anywhere (_ : Place) : Bool :=
  true

/-- The place to which a path leads from `here`. -/
def locate (tree : FileTree) (here : Place) (path : RawText) : Except FileError Place :=
  if path.isEmpty then .error .missing
  else if pathLimit ≤ path.size then .error .nameTooLong
  else locateFrom tree anywhere linkLimit (startOf here path) (pathParts path)

/-- The place to which a path leads, and what is there. -/
def resolve (tree : FileTree) (here : Place) (path : RawText) :
    Except FileError (Place × FileTree) := do
  let place ← locate tree here path
  match tree.get? place with
  | some found => return (place, found)
  | none => throw .missing

/-! ## Real paths -/

/-- The absolute path of the place is short enough to be looked at. -/
def hasShortPath (place : Place) : Bool :=
  (locationOf place).size < pathLimit

/-- The place whose absolute path is the real path of a path. -/
def realPath (tree : FileTree) (here : Place) (path : RawText) : Except FileError Place := do
  if path.isEmpty then throw .missing
  let place ← locateFrom tree hasShortPath linkLimit (startOf here path) (pathParts path)
  match tree.get? place with
  | some _ => return place
  | none => throw .missing

/-! ## Looking -/

/-- The path leads to something. -/
def existsAt (tree : FileTree) (here : Place) (path : RawText) : Bool :=
  (resolve tree here path).toOption.isSome

/-- The path leads to a directory. -/
def isDirectoryAt (tree : FileTree) (here : Place) (path : RawText) : Bool :=
  (resolve tree here path).toOption.any fun found => found.2.isDirectory

/-- The path leads to a file. -/
def isFileAt (tree : FileTree) (here : Place) (path : RawText) : Bool :=
  (resolve tree here path).toOption.any fun found => found.2.isFile

/-- The bytes of the file to which a path leads. -/
def readBytes (tree : FileTree) (here : Place) (path : RawText) : Except FileError (List UInt8) :=
  match resolve tree here path with
  | .ok (_, .file bytes) => .ok bytes
  | .ok (_, _) => .error .isDirectory
  | .error e => .error e

/-- The text of the file to which a path leads. -/
def readText (tree : FileTree) (here : Place) (path : RawText) : Except FileError (List Char) := do
  match Text.Utf8.decode? (← readBytes tree here path) with
  | some text => return text
  | none => throw .notText

/-! ## Writing -/

/-- The path without the separators at its end. -/
def withoutTrailing (path : RawText) : RawText :=
  ⟨(path.bytes.reverse.dropWhile (· = FilePath.separator)).reverse⟩

/-- The place of the file that a path names for writing. A path with a separator at its end names no
file. -/
def placeToWrite (tree : FileTree) (here : Place) (path : RawText) : Except FileError Place :=
  if path.bytes.getLast? = some FilePath.separator ∧ withoutTrailing path ≠ "" then do
    let place ← locate tree here (withoutTrailing path)
    match tree.get? place with
    | some (.file _) => throw .notDirectory
    | _ => throw .isDirectory
  else do
    let place ← locate tree here path
    match tree.get? place with
    | some (.directory _) => throw .isDirectory
    | _ => return place

/-- What goes wrong when a file is written. -/
inductive WriteFault where
  /-- The file is not opened, and nothing has changed. -/
  | unopened (cause : FileError)
  /-- The file is opened and emptied, but only the first bytes get into it. -/
  | cut (kept : Nat) (cause : FileError)
  deriving DecidableEq, Inhabited, Repr

/-- What has become of the files when one was to be written, and what went wrong if anything did. -/
structure Written where
  tree : FileTree
  fault? : Option FileError := none
  deriving Inhabited

/-- Writes the bytes of one file. `faultAt?` tells what goes wrong at a place to which a path
leads. -/
def write (tree : FileTree) (faultAt? : Place → List UInt8 → Option WriteFault) (here : Place)
    (path : RawText) (bytes : List UInt8) : Written :=
  match placeToWrite tree here path with
  | .error cause => { tree, fault? := some cause }
  | .ok place =>
    match faultAt? place bytes with
    | none => { tree := put (.file bytes) place tree }
    | some (.unopened cause) => { tree, fault? := some cause }
    | some (.cut kept cause) =>
      { tree := put (.file (bytes.take kept)) place tree, fault? := some cause }

end FileTree

end Cartograph
