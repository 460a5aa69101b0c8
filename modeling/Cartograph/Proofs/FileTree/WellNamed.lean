import Cartograph.FilePath
import Cartograph.FileTree.Basic
import Cartograph.Proofs.Text.Shown

/-!
# Trees whose entries have proper names

In a file system no two entries of a directory have the same name, and a name is not empty, holds no
separator and is neither `.` nor `..` (`FileTree.WellNamed`). What is found below a place of such a
tree is such a tree again (`FileTree.WellNamed.of_get?`), and every entry of a directory is found by
its name (`FileTree.child?_eq_some_iff`). Names need not be texts; where they are is said apart
(`FileTree.TextNamed`).
-/

namespace Cartograph

/-- A name that an entry of a directory can have. -/
structure EntryName (name : RawText) : Prop where
  ne_empty : name ≠ ""
  ne_dot : name ≠ "."
  ne_dots : name ≠ ".."
  not_mem_separator : FilePath.separator ∉ name.bytes

instance (name : RawText) : Decidable (EntryName name) :=
  decidable_of_iff (name ≠ "" ∧ name ≠ "." ∧ name ≠ ".." ∧ FilePath.separator ∉ name.bytes)
    ⟨fun h => ⟨h.1, h.2.1, h.2.2.1, h.2.2.2⟩,
      fun h => ⟨h.ne_empty, h.ne_dot, h.ne_dots, h.not_mem_separator⟩⟩

namespace FileTree

/-! ## Induction over trees -/

/-- What holds of files and links, and of a directory as soon as it holds of all its entries, holds
of every tree. -/
@[elab_as_elim]
theorem induction {motive : FileTree → Prop} (file : ∀ bytes, motive (.file bytes))
    (link : ∀ target, motive (.link target))
    (directory : ∀ entries, (∀ entry ∈ entries, motive entry.2) → motive (.directory entries))
    (tree : FileTree) : motive tree :=
  FileTree.rec (motive_1 := motive) (motive_2 := fun entries => ∀ entry ∈ entries, motive entry.2)
    (motive_3 := fun entry => motive entry.2) file link directory
    (fun _ h => absurd h List.not_mem_nil)
    (fun _ _ hhead htail _ h => by
      rcases List.mem_cons.mp h with rfl | h
      · exact hhead
      · exact htail _ h)
    (fun _ _ h => h) tree

/-! ## Names -/

mutual

/-- All entries of all directories have proper names, and no two entries of a directory the same. -/
def WellNamed : FileTree → Prop
  | .directory entries => (entries.map Prod.fst).Nodup ∧ WellNamedEntries entries
  | _ => True

/-- The entries have proper names, and so has all that is below them. -/
def WellNamedEntries : List (RawText × FileTree) → Prop
  | [] => True
  | (name, tree) :: rest => EntryName name ∧ tree.WellNamed ∧ WellNamedEntries rest

end

mutual

instance decidableWellNamed : (tree : FileTree) → Decidable tree.WellNamed
  | .directory entries =>
    have := decidableWellNamedEntries entries
    inferInstanceAs (Decidable ((entries.map Prod.fst).Nodup ∧ WellNamedEntries entries))
  | .file _ => isTrue trivial
  | .link _ => isTrue trivial

def decidableWellNamedEntries : (entries : List (RawText × FileTree)) →
    Decidable (WellNamedEntries entries)
  | [] => isTrue trivial
  | (name, tree) :: rest =>
    have := decidableWellNamed tree
    have := decidableWellNamedEntries rest
    inferInstanceAs (Decidable (EntryName name ∧ tree.WellNamed ∧ WellNamedEntries rest))

end

theorem wellNamedEntries_iff {entries : List (RawText × FileTree)} :
    WellNamedEntries entries ↔ ∀ entry ∈ entries, EntryName entry.1 ∧ entry.2.WellNamed := by
  induction entries with
  | nil => simp [WellNamedEntries]
  | cons entry rest ih =>
      obtain ⟨name, tree⟩ := entry
      rw [WellNamedEntries, ih, List.forall_mem_cons, and_assoc]

/-! ## Entries by name -/

/-- A look-up by name finds an entry of the directory. -/
theorem mem_of_child?_eq_some {name : RawText} {entries : List (RawText × FileTree)}
    {tree : FileTree} (h : child? name entries = some tree) : (name, tree) ∈ entries := by
  induction entries with
  | nil => cases h
  | cons entry rest ih =>
      obtain ⟨n, t⟩ := entry
      rw [child?] at h
      split at h
      · rename_i hname
        rw [← hname, Option.some.inj h]
        exact List.mem_cons_self
      · exact List.mem_cons_of_mem _ (ih h)

/-- **Every entry is found by its name** if no two entries have the same name. -/
theorem child?_eq_some_iff {name : RawText} {entries : List (RawText × FileTree)}
    (h : (entries.map Prod.fst).Nodup) {tree : FileTree} :
    child? name entries = some tree ↔ (name, tree) ∈ entries := by
  refine ⟨mem_of_child?_eq_some, fun hmem => ?_⟩
  induction entries with
  | nil => cases hmem
  | cons entry rest ih =>
      obtain ⟨n, t⟩ := entry
      rw [List.map_cons, List.nodup_cons] at h
      rw [child?]
      rcases List.mem_cons.mp hmem with heq | hrest
      · obtain ⟨rfl, rfl⟩ := Prod.mk.inj heq
        exact if_pos rfl
      · have hne : n ≠ name := by
          rintro rfl
          exact h.1 (List.mem_map.mpr ⟨_, hrest, rfl⟩)
        rw [if_neg hne, ih h.2 hrest]

/-! ## Below a place -/

namespace WellNamed

variable {tree found : FileTree} {entries : List (RawText × FileTree)} {names : Place}

theorem nodup_names (h : WellNamed (.directory entries)) : (entries.map Prod.fst).Nodup := h.1

theorem entryName_of_mem (h : WellNamed (.directory entries)) {entry : RawText × FileTree}
    (hentry : entry ∈ entries) : EntryName entry.1 :=
  (wellNamedEntries_iff.mp h.2 entry hentry).1

theorem wellNamed_of_mem (h : WellNamed (.directory entries)) {entry : RawText × FileTree}
    (hentry : entry ∈ entries) : entry.2.WellNamed :=
  (wellNamedEntries_iff.mp h.2 entry hentry).2

/-- **What is found at a place** of a tree with proper names is such a tree itself, and the names
that lead there are proper. -/
theorem of_get? (h : tree.WellNamed) (hfound : tree.get? names = some found) :
    found.WellNamed ∧ ∀ name ∈ names, EntryName name := by
  induction names generalizing tree with
  | nil =>
      rw [get?] at hfound
      rw [← Option.some.inj hfound]
      exact ⟨h, fun _ hname => absurd hname List.not_mem_nil⟩
  | cons name rest ih =>
      cases tree with
      | file bytes => cases hfound
      | link target => cases hfound
      | directory entries =>
          rw [get?] at hfound
          cases hchild : child? name entries with
          | none =>
              rw [hchild] at hfound
              cases hfound
          | some below =>
              rw [hchild] at hfound
              have hentry := mem_of_child?_eq_some hchild
              obtain ⟨hnamed, hrest⟩ := ih (h.wellNamed_of_mem hentry) hfound
              refine ⟨hnamed, fun n hn => ?_⟩
              rcases List.mem_cons.mp hn with rfl | hn
              · exact h.entryName_of_mem hentry
              · exact hrest n hn

end WellNamed

/-! ## Names that are texts -/

mutual

/-- All names of all entries are texts. -/
def TextNamed : FileTree → Prop
  | .directory entries => TextNamedEntries entries
  | _ => True

/-- The names of the entries are texts, and so are all names below them. -/
def TextNamedEntries : List (RawText × FileTree) → Prop
  | [] => True
  | (name, tree) :: rest => name.IsText ∧ tree.TextNamed ∧ TextNamedEntries rest

end

mutual

instance decidableTextNamed : (tree : FileTree) → Decidable tree.TextNamed
  | .directory entries =>
    have := decidableTextNamedEntries entries
    inferInstanceAs (Decidable (TextNamedEntries entries))
  | .file _ => isTrue trivial
  | .link _ => isTrue trivial

def decidableTextNamedEntries : (entries : List (RawText × FileTree)) →
    Decidable (TextNamedEntries entries)
  | [] => isTrue trivial
  | (name, tree) :: rest =>
    have := decidableTextNamed tree
    have := decidableTextNamedEntries rest
    inferInstanceAs (Decidable (name.IsText ∧ tree.TextNamed ∧ TextNamedEntries rest))

end

theorem TextNamedEntries.of_mem {entries : List (RawText × FileTree)} (h : TextNamedEntries entries)
    {entry : RawText × FileTree} (hentry : entry ∈ entries) :
    entry.1.IsText ∧ entry.2.TextNamed := by
  induction entries with
  | nil => cases hentry
  | cons first rest ih =>
      obtain ⟨hname, htree, hrest⟩ := h
      rcases List.mem_cons.mp hentry with rfl | hlater
      · exact ⟨hname, htree⟩
      · exact ih hrest hlater

/-- What is found at a place of a tree whose names are texts is such a tree itself, and the names
that lead there are texts. -/
theorem TextNamed.of_get? {tree found : FileTree} (h : tree.TextNamed) {names : Place}
    (hfound : tree.get? names = some found) : found.TextNamed ∧ ∀ name ∈ names, name.IsText := by
  induction names generalizing tree with
  | nil =>
      rw [get?] at hfound
      rw [← Option.some.inj hfound]
      exact ⟨h, fun _ hname => absurd hname List.not_mem_nil⟩
  | cons name rest ih =>
      cases tree with
      | file bytes => cases hfound
      | link target => cases hfound
      | directory entries =>
          rw [get?] at hfound
          cases hchild : child? name entries with
          | none =>
              rw [hchild] at hfound
              cases hfound
          | some below =>
              rw [hchild] at hfound
              obtain ⟨hname, hbelow⟩ := TextNamedEntries.of_mem h (mem_of_child?_eq_some hchild)
              obtain ⟨htext, hrest⟩ := ih hbelow hfound
              exact ⟨htext, List.forall_mem_cons.mpr ⟨hname, hrest⟩⟩

end FileTree

end Cartograph
