import Cartograph.FileTree.Listing
import Cartograph.Proofs.Discovery
import Cartograph.Proofs.FileTree.WellNamed
import Mathlib.Data.String.Basic

/-!
# What a listing holds

A listing goes through the directories that it enters in the order of names. In a tree with proper
names it holds every file and link whose directories are all entered (`mem_listing_iff`), and
nothing twice: the places come in strictly increasing order (`pairwise_listing`).
-/

namespace Cartograph.FileTree

/-! ## Directories on the way -/

/-- Whatever has something below it is a directory. -/
theorem exists_directory_of_get?_append {tree found : FileTree} {above below : Place}
    (h : tree.get? (above ++ below) = some found) (hne : below ≠ []) :
    ∃ entries, tree.get? above = some (.directory entries) := by
  rw [get?_append, Option.bind_eq_some_iff] at h
  obtain ⟨start, hstart, hbelow⟩ := h
  cases below with
  | nil => exact absurd rfl hne
  | cons name rest =>
      cases start with
      | file bytes => cases hbelow
      | link target => cases hbelow
      | directory entries => exact ⟨entries, hstart⟩

/-! ## Arranged trees -/

theorem arrangeEntries_eq (entries : List (RawText × FileTree)) :
    arrangeEntries entries = entries.map fun entry => (entry.1, entry.2.arrange) := by
  induction entries with
  | nil => rfl
  | cons entry rest ih =>
      obtain ⟨name, tree⟩ := entry
      rw [arrangeEntries, ih, List.map_cons]

/-- The entries of a directory in the order of their names. -/
def arranged (entries : List (RawText × FileTree)) : List (RawText × FileTree) :=
  (entries.map fun entry => (entry.1, entry.2.arrange)).mergeSort before

theorem arrange_directory (entries : List (RawText × FileTree)) :
    arrange (.directory entries) = .directory (arranged entries) := by
  rw [arrange, arrangeEntries_eq, arranged]

theorem mem_arranged {entries : List (RawText × FileTree)} {entry : RawText × FileTree} :
    entry ∈ arranged entries ↔ ∃ tree, (entry.1, tree) ∈ entries ∧ tree.arrange = entry.2 := by
  rw [arranged, List.mem_mergeSort, List.mem_map]
  constructor
  · rintro ⟨⟨name, tree⟩, hmem, rfl⟩
    exact ⟨tree, hmem, rfl⟩
  · rintro ⟨tree, hmem, htree⟩
    exact ⟨_, hmem, Prod.ext rfl htree⟩

/-- Entries are compared by the bytes of their names. -/
theorem before_iff {a b : RawText × FileTree} : before a b = true ↔ a.1.bytes ≤ b.1.bytes := by
  rw [before, Bool.not_eq_true', decide_eq_false_iff_not]
  exact List.not_lt

/-- **Arranged entries stand in strictly increasing order** of their names. -/
theorem pairwise_arranged {entries : List (RawText × FileTree)}
    (h : (entries.map Prod.fst).Nodup) : (arranged entries).Pairwise fun a b => a.1 < b.1 := by
  have hsorted : (arranged entries).Pairwise fun a b => before a b = true := by
    refine List.pairwise_mergeSort (fun a b c hab hbc => ?_) (fun a b => ?_) _
    · rw [before_iff] at hab hbc ⊢
      exact List.le_trans hab hbc
    · rw [Bool.or_eq_true, before_iff, before_iff]
      exact List.le_total a.1.bytes b.1.bytes
  have hnodup : ((arranged entries).map Prod.fst).Nodup := by
    have hperm : ((arranged entries).map Prod.fst).Perm (entries.map Prod.fst) := by
      rw [arranged]
      refine ((List.mergeSort_perm _ _).map Prod.fst).trans ?_
      rw [List.map_map]
      rfl
    exact hperm.nodup_iff.mpr h
  rw [List.Nodup, List.pairwise_map] at hnodup
  refine (hsorted.and hnodup).imp fun {a b} hab => ?_
  by_contra hless
  have hback : b.1.bytes ≤ a.1.bytes := List.not_lt.mp hless
  exact hab.2 (congrArg RawText.mk (List.le_antisymm (before_iff.mp hab.1) hback))

/-! ## Listings of directories -/

theorem listEntries_eq (enters : Place → Bool) (place : Place)
    (entries : List (RawText × FileTree)) : listEntries enters place entries
      = entries.flatMap fun entry => listTree enters (place ++ [entry.1]) entry.2 := by
  induction entries with
  | nil => rfl
  | cons entry rest ih =>
      obtain ⟨name, tree⟩ := entry
      rw [listEntries, ih, List.flatMap_cons]

/-- Every directory on the way to a place is entered, the one at `place` included. -/
def EntersTo (enters : Place → Bool) (place names : Place) : Prop :=
  ∀ above below, names = above ++ below → below ≠ [] → enters (place ++ above) = true

theorem entersTo_cons {enters : Place → Bool} {place rest : Place} {name : RawText} :
    EntersTo enters place (name :: rest) ↔
      enters place = true ∧ EntersTo enters (place ++ [name]) rest := by
  constructor
  · intro h
    refine ⟨?_, fun above below heq hne => ?_⟩
    · simpa using h [] (name :: rest) rfl (List.cons_ne_nil name rest)
    · have := h (name :: above) below (by rw [heq, List.cons_append]) hne
      rwa [List.append_assoc, List.singleton_append]
  · rintro ⟨hplace, hrest⟩ above below heq hne
    cases above with
    | nil => rwa [List.append_nil]
    | cons n above =>
        rw [List.cons_append, List.cons.injEq] at heq
        have := hrest above below heq.2 hne
        rwa [List.append_assoc, List.singleton_append, heq.1] at this

/-- A file or link stands where `names` lead below `tree`, and every directory on the way there from
`place` is entered. -/
structure Listed (enters : Place → Bool) (place : Place) (tree : FileTree) (names : Place)
    (leaf : FileTree) : Prop where
  found : tree.get? names = some leaf
  isDirectory_eq_false : leaf.isDirectory = false
  entersTo : EntersTo enters place names

section

variable {enters : Place → Bool} {place names : Place} {leaf : FileTree}
  {entries : List (RawText × FileTree)} {entry : Place × FileTree}

/-- What is no directory has nothing below it. -/
theorem listed_of_isDirectory_eq_false {tree : FileTree} (h : tree.isDirectory = false) :
    Listed enters place tree names leaf ↔ names = [] ∧ leaf = tree := by
  constructor
  · rintro ⟨hfound, -, -⟩
    cases names with
    | nil => exact ⟨rfl, (Option.some.inj hfound).symm⟩
    | cons name rest =>
        cases tree with
        | file bytes => cases hfound
        | link target => cases hfound
        | directory entries => cases h
  · rintro ⟨rfl, rfl⟩
    exact ⟨rfl, h, fun above below heq hne => absurd (List.append_eq_nil_iff.mp heq.symm).2 hne⟩

/-- Below a directory that is entered stands what stands below its entries. -/
theorem listed_directory_iff (h : WellNamed (.directory entries)) :
    Listed enters place (.directory entries) names leaf ↔ enters place = true ∧
      ∃ name tree rest, (name, tree) ∈ entries ∧ names = name :: rest ∧
        Listed enters (place ++ [name]) tree rest leaf := by
  constructor
  · rintro ⟨hfound, hleaf, hto⟩
    cases names with
    | nil =>
        rw [← Option.some.inj hfound] at hleaf
        cases hleaf
    | cons name rest =>
        obtain ⟨hplace, hrest⟩ := entersTo_cons.mp hto
        rw [get?] at hfound
        cases hchild : child? name entries with
        | none =>
            rw [hchild] at hfound
            cases hfound
        | some tree =>
            rw [hchild] at hfound
            have hmem := mem_of_child?_eq_some hchild
            exact ⟨hplace, name, tree, rest, hmem, rfl, hfound, hleaf, hrest⟩
  · rintro ⟨hplace, name, tree, rest, hmem, rfl, hfound, hleaf, hrest⟩
    refine ⟨?_, hleaf, entersTo_cons.mpr ⟨hplace, hrest⟩⟩
    rw [get?, (child?_eq_some_iff h.nodup_names).mpr hmem]
    exact hfound

theorem mem_listTree_directory : entry ∈ listTree enters place (arrange (.directory entries)) ↔
    enters place = true ∧ ∃ name tree, (name, tree) ∈ entries ∧
      entry ∈ listTree enters (place ++ [name]) tree.arrange := by
  rw [arrange_directory, listTree]
  split
  · rename_i hplace
    rw [listEntries_eq, List.mem_flatMap]
    constructor
    · rintro ⟨⟨name, below⟩, hbelow, hentry⟩
      obtain ⟨tree, htree, rfl⟩ := mem_arranged.mp hbelow
      exact ⟨hplace, name, tree, htree, hentry⟩
    · rintro ⟨-, name, tree, htree, hentry⟩
      exact ⟨(name, tree.arrange), mem_arranged.mpr ⟨tree, htree, rfl⟩, hentry⟩
  · rename_i hplace
    exact iff_of_false List.not_mem_nil fun h => hplace h.1

theorem mem_listTree_of_isDirectory_eq_false {tree : FileTree} (h : tree.isDirectory = false) :
    entry ∈ listTree enters place tree.arrange ↔
      ∃ names, entry.1 = place ++ names ∧ Listed enters place tree names entry.2 := by
  have hleaf : listTree enters place tree.arrange = [(place, tree)] := by
    cases tree with
    | file bytes => rfl
    | link target => rfl
    | directory entries => cases h
  simp [hleaf, listed_of_isDirectory_eq_false h, Prod.ext_iff]

/-- **What a tree adds to a listing**: the files and links below it whose directories are all
entered. -/
theorem mem_listTree_iff {tree : FileTree} (h : tree.WellNamed) :
    entry ∈ listTree enters place tree.arrange ↔
      ∃ names, entry.1 = place ++ names ∧ Listed enters place tree names entry.2 := by
  induction tree using FileTree.induction generalizing place with
  | file bytes => exact mem_listTree_of_isDirectory_eq_false rfl
  | link target => exact mem_listTree_of_isDirectory_eq_false rfl
  | directory entries ih =>
      rw [mem_listTree_directory]
      simp only [listed_directory_iff h]
      constructor
      · rintro ⟨hplace, name, tree, htree, hentry⟩
        obtain ⟨names, heq, hlisted⟩ := (ih _ htree (h.wellNamed_of_mem htree)).mp hentry
        refine ⟨name :: names, ?_, hplace, name, tree, names, htree, rfl, hlisted⟩
        rw [heq, List.append_assoc, List.singleton_append]
      · rintro ⟨_, heq, hplace, name, tree, rest, htree, rfl, hlisted⟩
        refine ⟨hplace, name, tree, htree, ?_⟩
        refine (ih _ htree (h.wellNamed_of_mem htree)).mpr ⟨rest, ?_, hlisted⟩
        rw [heq, List.append_assoc, List.singleton_append]

/-! ## The order of a listing -/

/-- What a tree adds to a listing stands at the tree or below. -/
theorem prefix_of_mem_listTree {tree : FileTree} (h : tree.WellNamed)
    (hentry : entry ∈ listTree enters place tree.arrange) : place <+: entry.1 := by
  obtain ⟨names, heq, -⟩ := (mem_listTree_iff h).mp hentry
  exact ⟨names, heq.symm⟩

/-- **The places of a listing come in strictly increasing order**, name by name. -/
theorem pairwise_listTree {tree : FileTree} (h : tree.WellNamed) (enters : Place → Bool)
    (place : Place) : (listTree enters place tree.arrange).Pairwise fun a b => a.1 < b.1 := by
  induction tree using FileTree.induction generalizing place with
  | file bytes => exact List.pairwise_singleton _ _
  | link target => exact List.pairwise_singleton _ _
  | directory entries ih =>
      rw [arrange_directory, listTree]
      split
      · rw [listEntries_eq, List.pairwise_flatMap]
        constructor
        · intro entry hentry
          obtain ⟨tree, htree, hbelow⟩ := mem_arranged.mp hentry
          rw [← hbelow]
          exact ih _ htree (h.wellNamed_of_mem htree) _
        · -- entries in the order of their names add places in the order of those names
          refine (pairwise_arranged h.nodup_names).imp_of_mem fun {a b} ha hb hab x hx y hy => ?_
          obtain ⟨s, hs, hsa⟩ := mem_arranged.mp ha
          obtain ⟨t, ht, htb⟩ := mem_arranged.mp hb
          rw [← hsa] at hx
          rw [← htb] at hy
          obtain ⟨xs, hxs⟩ := prefix_of_mem_listTree (h.wellNamed_of_mem hs) hx
          obtain ⟨ys, hys⟩ := prefix_of_mem_listTree (h.wellNamed_of_mem ht) hy
          rw [← hxs, ← hys, List.append_assoc, List.append_assoc]
          exact List.append_left_lt (List.cons_lt_cons_iff.mpr (Or.inl hab))
      · exact List.Pairwise.nil

/-! ## Whole listings -/

/-- What a tree adds to a listing does not depend on what is entered elsewhere. -/
theorem listTree_congr {enters others : Place → Bool} {place : Place}
    (h : ∀ below, enters (place ++ below) = others (place ++ below)) (tree : FileTree) :
    listTree enters place tree = listTree others place tree := by
  induction tree using FileTree.induction generalizing place with
  | file bytes => rfl
  | link target => rfl
  | directory entries ih =>
      have hplace : enters place = others place := by
        rw [← List.append_nil place]
        exact h []
      rw [listTree, listTree, hplace, listEntries_eq, listEntries_eq]
      congr 1
      refine List.flatMap_congr fun entry hentry => ih entry hentry fun below => ?_
      rw [List.append_assoc]
      exact h ([entry.1] ++ below)

/-- The directory that is listed is entered always. -/
theorem listing_directory (enters : Place → Bool) (entries : List (RawText × FileTree)) :
    listing enters (.directory entries) = listTree (fun place => place.isEmpty || enters place) []
      (arrange (.directory entries)) := by
  have hroot : (([] : Place).isEmpty || enters []) = true := rfl
  rw [listing, arrange_directory, listTree, if_pos hroot]
  simp only [listEntries_eq]
  refine List.flatMap_congr fun entry _ => listTree_congr (fun below => ?_) entry.2
  rw [List.append_assoc, List.singleton_append, List.nil_append, List.isEmpty_cons, Bool.false_or]

/-- **A listing is exact**: it holds the files and links below the directory for which every
directory strictly between is entered. -/
theorem mem_listing_iff (h : WellNamed (.directory entries)) :
    entry ∈ listing enters (.directory entries) ↔
      (get? entry.1 (.directory entries) = some entry.2 ∧ entry.2.isDirectory = false) ∧
        ∀ above below, entry.1 = above ++ below → above ≠ [] → below ≠ [] →
          enters above = true := by
  have henters : EntersTo (fun place => place.isEmpty || enters place) [] entry.1 ↔
      ∀ above below, entry.1 = above ++ below → above ≠ [] → below ≠ [] →
        enters above = true := by
    refine forall₃_congr fun above below heq => ?_
    cases above <;> simp
  rw [listing_directory, mem_listTree_iff h, ← henters]
  constructor
  · rintro ⟨names, heq, hfound, hleaf, hto⟩
    rw [List.nil_append] at heq
    subst heq
    exact ⟨⟨hfound, hleaf⟩, hto⟩
  · rintro ⟨⟨hfound, hleaf⟩, hto⟩
    exact ⟨entry.1, (List.nil_append _).symm, hfound, hleaf, hto⟩

/-- **A listing is in order**: its places increase strictly, name by name. -/
theorem pairwise_listing (h : WellNamed (.directory entries)) (enters : Place → Bool) :
    (listing enters (.directory entries)).Pairwise fun a b => a.1 < b.1 := by
  rw [listing_directory]
  exact pairwise_listTree h _ []

end

end Cartograph.FileTree
