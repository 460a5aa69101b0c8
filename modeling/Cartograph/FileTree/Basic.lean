import Cartograph.Text.Raw

/-!
# File trees

A tree of directories, files and symbolic links. A place in it is the list of names that lead to it
from the root. A name is a run of bytes, and so is the path that a link stands for. Main statement:
what is put at a place is found there (`get?_put_self`).
-/

namespace Cartograph

/-- A directory with all that is below it, a file or a link. -/
inductive FileTree where
  | file (bytes : List UInt8)
  /-- A symbolic link with the path that it stands for. -/
  | link (target : RawText)
  | directory (entries : List (RawText × FileTree))
  deriving Inhabited

/-- The names that lead to a place from the root. -/
abbrev Place := List RawText

/-- Why a path does not lead where it should. -/
inductive FileError where
  | missing
  | notDirectory
  | isDirectory
  | tooManyLinks
  | nameTooLong
  /-- The bytes of a file are no text. -/
  | notText
  /-- The machine gives another reason, in words of its own. -/
  | other (reason : String)
  deriving DecidableEq, Inhabited, Repr

/-- What a reader is told. -/
def FileError.message : FileError → String
  | .missing => "No such file or directory (os error 2)"
  | .notDirectory => "Not a directory (os error 20)"
  | .isDirectory => "Is a directory (os error 21)"
  | .tooManyLinks => "Too many levels of symbolic links (os error 40)"
  | .nameTooLong => "File name too long (os error 36)"
  | .notText => "stream did not contain valid UTF-8"
  | .other reason => reason

namespace FileTree

/-! ## Entries of a directory -/

/-- The entry with this name. -/
def child? (name : RawText) : List (RawText × FileTree) → Option FileTree
  | [] => none
  | (n, t) :: rest => if n = name then some t else child? name rest

/-- The entries with one changed or added. -/
def setChild (name : RawText) (tree : FileTree) :
    List (RawText × FileTree) → List (RawText × FileTree)
  | [] => [(name, tree)]
  | (n, t) :: rest => if n = name then (n, tree) :: rest else (n, t) :: setChild name tree rest

theorem child?_setChild_self (name : RawText) (tree : FileTree)
    (entries : List (RawText × FileTree)) :
    child? name (setChild name tree entries) = some tree := by
  induction entries with
  | nil => simp [setChild, child?]
  | cons entry rest ih =>
    obtain ⟨n, t⟩ := entry
    by_cases h : n = name <;> simp [setChild, child?, h, ih]

theorem child?_setChild_of_ne {name other : RawText} (h : other ≠ name) (tree : FileTree)
    (entries : List (RawText × FileTree)) :
    child? other (setChild name tree entries) = child? other entries := by
  induction entries with
  | nil => simp [setChild, child?, Ne.symm h]
  | cons entry rest ih =>
    obtain ⟨n, t⟩ := entry
    by_cases hn : n = name
    · subst hn
      simp [setChild, child?, Ne.symm h]
    · rw [setChild, if_neg hn, child?, child?, ih]

/-! ## Places -/

/-- What stands at a place; links are not followed. -/
def get? : Place → FileTree → Option FileTree
  | [], tree => some tree
  | name :: rest, .directory entries =>
    match child? name entries with
    | some tree => get? rest tree
    | none => none
  | _ :: _, _ => none

/-- The tree with something put at a place. Directories on the way that are not there are made, and
what is no directory gives way to one. -/
def put (new : FileTree) : Place → FileTree → FileTree
  | [], _ => new
  | name :: rest, .directory entries =>
    .directory (setChild name (put new rest ((child? name entries).getD (.directory []))) entries)
  | name :: rest, _ => .directory [(name, put new rest (.directory []))]

theorem get?_put_self (new : FileTree) (place : Place) (tree : FileTree) :
    (put new place tree).get? place = some new := by
  induction place generalizing tree with
  | nil => rfl
  | cons name rest ih =>
    cases tree with
    | directory entries => simp [put, get?, child?_setChild_self, ih]
    | file bytes => simp [put, get?, child?, ih]
    | link target => simp [put, get?, child?, ih]

/-! ## What stands at a place -/

/-- The entries of a directory. -/
def entries? : FileTree → Option (List (RawText × FileTree))
  | .directory entries => some entries
  | _ => none

/-- There is a directory. -/
def isDirectory (tree : FileTree) : Bool :=
  tree.entries?.isSome

/-- There is a file. -/
def isFile : FileTree → Bool
  | .file _ => true
  | _ => false

end FileTree

end Cartograph
