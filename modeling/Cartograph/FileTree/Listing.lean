import Cartograph.FileTree.Basic

/-!
# Listings

What is below a directory, in order: the entries of a directory by their names, and what is in a
directory at the place of the directory.
-/

namespace Cartograph.FileTree

/-! ## Order -/

/-- One entry comes before another or at the same place. -/
def before (a b : RawText × FileTree) : Bool :=
  !(b.1 < a.1)

mutual

/-- The tree with the entries of every directory in the order of their names. -/
def arrange : FileTree → FileTree
  | .directory entries => .directory ((arrangeEntries entries).mergeSort before)
  | tree => tree

/-- What `arrange` makes of what every entry holds. -/
def arrangeEntries : List (RawText × FileTree) → List (RawText × FileTree)
  | [] => []
  | (name, tree) :: rest => (name, arrange tree) :: arrangeEntries rest

end

/-! ## Listing -/

mutual

/-- What `tree` at `place` adds to a listing: itself, or what is in it if it is a directory that is
entered. -/
def listTree (enters : Place → Bool) (place : Place) : FileTree → List (Place × FileTree)
  | .directory entries => if enters place then listEntries enters place entries else []
  | tree => [(place, tree)]

/-- What the entries of the directory at `place` add to a listing. -/
def listEntries (enters : Place → Bool) (place : Place) :
    List (RawText × FileTree) → List (Place × FileTree)
  | [] => []
  | (name, tree) :: rest =>
    listTree enters (place ++ [name]) tree ++ listEntries enters place rest

end

/-- The files and links below a tree with their places below it. A directory is entered if `enters`
says so of its place, and the tree itself always. -/
def listing (enters : Place → Bool) (tree : FileTree) : List (Place × FileTree) :=
  match tree.arrange with
  | .directory entries => listEntries enters [] entries
  | _ => []

end Cartograph.FileTree
