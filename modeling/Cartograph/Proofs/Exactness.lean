import Cartograph.Proofs.FileTree.Listing
import Cartograph.Proofs.FileTree.Paths

/-!
# Discovery is exact

Which files of a repository are found is said place by place (`LookedAt`): there is a file or a link
to one, every directory on the way is entered, and neither the extension nor the rules speak against
the file. These files are found and no others, whatever bytes their names are (`mem_discover_iff`).
Main statement: where all names are texts each of them is found once and in the order of its path,
whatever the directory of the repository is called (`discover_exact`).
-/

namespace Cartograph

/-! ## Which files are looked at -/

/-- The names lead from the root to a file that is looked at. -/
structure LookedAt (tree : FileTree) (root : Place) (settings : DiscoverySettings)
    (ignored : Ignored) (names : Place) : Prop where
  /-- There is a file, or a link to one. -/
  file : (∃ bytes, tree.get? (root ++ names) = some (.file bytes)) ∨
    (∃ target, tree.get? (root ++ names) = some (.link target)) ∧
      tree.isFileAt [] (locationOf (root ++ names)) = true
  /-- Strictly between the root and the file are directories only; none of them is passed over by
  its name or ignored. -/
  between : ∀ above name below, names = above ++ name :: below → below ≠ [] →
    (∃ entries, tree.get? (root ++ (above ++ [name])) = some (.directory entries)) ∧
      settings.skipsDirectory name.shown = false ∧
        ignored (pathOf (above ++ [name])) true = false
  isBinary_eq_false : ∀ name, names.getLast? = some name →
    settings.isBinary (lowerExtension name.shown) = false
  /-- The rules are asked about the path of the file as it is shown. -/
  ignored_eq_false : ignored (pathOf names).shown false = false

/-- The bytes of the parts of a path between separators. -/
def partBytes (path : String) : List (List UInt8) :=
  (Text.splitText '/' path).map Text.Utf8.encode

/-- Neither its extension nor the rules speak against the file to which the names lead. -/
def admits (settings : DiscoverySettings) (ignored : Ignored) (names : Place) : Bool :=
  !settings.isBinary (lowerExtension (names.getLast?.getD "").shown) &&
    !ignored (pathOf names).shown false

section

variable {tree : FileTree} {root : Place} {settings : DiscoverySettings} {ignored : Ignored}
  {entries : List (RawText × FileTree)} {entry : Place × FileTree}

/-- The names of what is listed are proper, and there is at least one. -/
theorem entryName_of_mem_listing (h : FileTree.WellNamed (.directory entries))
    {enters : Place → Bool} (hentry : entry ∈ FileTree.listing enters (.directory entries)) :
    (∀ name ∈ entry.1, EntryName name) ∧ ∃ above name, entry.1 = above ++ [name] := by
  obtain ⟨⟨hfound, hleaf⟩, -⟩ := (FileTree.mem_listing_iff h).mp hentry
  refine ⟨(h.of_get? hfound).2, ?_⟩
  rcases List.eq_nil_or_concat' entry.1 with hnil | hconcat
  · rw [hnil] at hfound
    rw [← Option.some.inj hfound] at hleaf
    cases hleaf
  · exact hconcat

/-- A file of a repository lies in a directory below the root, under proper names. -/
theorem exists_place_of_mem_discover {file : SourceFile} (h : tree.WellNamed)
    (hfile : file ∈ discover tree root settings ignored) :
    ∃ above name, (∀ n ∈ above ++ [name], EntryName n) ∧
      file = SourceFile.at root (above ++ [name]) := by
  unfold discover at hfile
  split at hfile
  · rename_i start hstart
    obtain ⟨entry, hentry, rfl⟩ := List.mem_map.mp (List.mem_filter.mp hfile).1
    have hlisted := (List.mem_filter.mp hentry).1
    cases start with
    | file bytes => cases hlisted
    | link target => cases hlisted
    | directory entries =>
        obtain ⟨hnames, above, name, heq⟩ :=
          entryName_of_mem_listing (h.of_get? hstart).1 hlisted
        rw [heq] at hnames ⊢
        exact ⟨above, name, hnames, rfl⟩
  · cases hfile

theorem wants_at (h : FileTree.WellNamed (.directory entries))
    (hentry : entry ∈ FileTree.listing (entersDirectory settings ignored) (.directory entries)) :
    wants settings ignored (SourceFile.at root entry.1) = admits settings ignored entry.1 := by
  obtain ⟨hnames, above, name, heq⟩ := entryName_of_mem_listing h hentry
  rw [heq] at hnames ⊢
  rw [wants, SourceFile.at_eq hnames, admits, List.getLast?_concat, Option.getD_some]

/-- What is found is listed, counts as a file and is admitted. -/
theorem discover_eq (hroot : tree.get? root = some (.directory entries))
    (h : FileTree.WellNamed (.directory entries)) :
    discover tree root settings ignored
      = ((FileTree.listing (entersDirectory settings ignored) (.directory entries)).filter
          fun entry => countsAsFile tree root entry.1 entry.2 &&
            admits settings ignored entry.1).map fun entry => SourceFile.at root entry.1 := by
  rw [discover, hroot]
  simp only [List.filter_map, List.filter_filter]
  congr 1
  refine List.filter_congr fun entry hentry => ?_
  rw [Function.comp_apply, wants_at h hentry, Bool.and_comm]

theorem entersDirectory_concat {above : Place} {name : RawText} :
    entersDirectory settings ignored (above ++ [name]) = true ↔
      settings.skipsDirectory name.shown = false ∧
        ignored (pathOf (above ++ [name])) true = false := by
  rw [entersDirectory, List.getLast?_concat, Option.getD_some, Bool.and_eq_true, Bool.not_eq_true',
    Bool.not_eq_true']

theorem admits_concat {above : Place} {name : RawText} :
    admits settings ignored (above ++ [name]) = true ↔
      settings.isBinary (lowerExtension name.shown) = false ∧
        ignored (pathOf (above ++ [name])).shown false = false := by
  rw [admits, List.getLast?_concat, Option.getD_some, Bool.and_eq_true, Bool.not_eq_true',
    Bool.not_eq_true']

/-- What counts as a file is a file or a link to one. -/
theorem countsAsFile_iff {names : Place} {leaf : FileTree} (hleaf : leaf.isDirectory = false)
    (hfound : tree.get? (root ++ names) = some leaf) : countsAsFile tree root names leaf = true ↔
      (∃ bytes, tree.get? (root ++ names) = some (.file bytes)) ∨
        (∃ target, tree.get? (root ++ names) = some (.link target)) ∧
          tree.isFileAt [] (locationOf (root ++ names)) = true := by
  rw [hfound]
  cases leaf with
  | file bytes => simp [countsAsFile]
  | link target => simp [countsAsFile]
  | directory entries => cases hleaf

/-- What stands below the root stands below the directory there. -/
theorem get?_root_append (hroot : tree.get? root = some (.directory entries)) (names : Place) :
    tree.get? (root ++ names) = FileTree.get? names (.directory entries) := by
  rw [FileTree.get?_append, hroot, Option.bind_some]

/-- What is listed, counts as a file and is admitted is looked at. -/
theorem lookedAt_of_mem_listing (hroot : tree.get? root = some (.directory entries))
    (h : FileTree.WellNamed (.directory entries)) {names : Place} {leaf : FileTree}
    (hlisted : (names, leaf) ∈
      FileTree.listing (entersDirectory settings ignored) (.directory entries))
    (hadmitted : (countsAsFile tree root names leaf && admits settings ignored names) = true) :
    LookedAt tree root settings ignored names := by
  obtain ⟨-, front, last, hlast⟩ := entryName_of_mem_listing h hlisted
  obtain ⟨⟨hfound, hleaf⟩, henters⟩ := (FileTree.mem_listing_iff h).mp hlisted
  simp only at hlast hfound henters
  rw [← get?_root_append hroot] at hfound
  rw [Bool.and_eq_true, countsAsFile_iff hleaf hfound, hlast, admits_concat, ← hlast] at hadmitted
  obtain ⟨hfile, hbinary, hignored⟩ := hadmitted
  refine ⟨hfile, ?_, ?_, hignored⟩
  · intro above name below heq hne
    have hsplit : names = (above ++ [name]) ++ below := by
      rw [heq, List.append_assoc, List.singleton_append]
    have hbetween := henters (above ++ [name]) below hsplit (by simp) hne
    have hway : tree.get? ((root ++ (above ++ [name])) ++ below) = some leaf := by
      rw [List.append_assoc, ← hsplit]
      exact hfound
    exact ⟨FileTree.exists_directory_of_get?_append hway hne, entersDirectory_concat.mp hbetween⟩
  · intro name hname
    rw [hlast, List.getLast?_concat, Option.some.injEq] at hname
    rwa [← hname]

/-- What is looked at is listed. -/
theorem mem_listing_of_lookedAt (hroot : tree.get? root = some (.directory entries))
    (h : FileTree.WellNamed (.directory entries)) {names : Place}
    (hnames : LookedAt tree root settings ignored names) :
    ∃ leaf, tree.get? (root ++ names) = some leaf ∧ leaf.isDirectory = false ∧ (names, leaf) ∈
      FileTree.listing (entersDirectory settings ignored) (.directory entries) := by
  obtain ⟨leaf, hfound, hleaf⟩ : ∃ leaf, tree.get? (root ++ names) = some leaf ∧
      leaf.isDirectory = false := by
    rcases hnames.file with ⟨bytes, hbytes⟩ | ⟨⟨target, htarget⟩, -⟩
    · exact ⟨_, hbytes, rfl⟩
    · exact ⟨_, htarget, rfl⟩
  refine ⟨leaf, hfound, hleaf, (FileTree.mem_listing_iff h).mpr ⟨⟨?_, hleaf⟩, ?_⟩⟩
  · exact (get?_root_append hroot names).symm.trans hfound
  · intro above below heq hne hbelow
    rcases List.eq_nil_or_concat' above with rfl | ⟨front, name, rfl⟩
    · exact absurd rfl hne
    · rw [List.append_assoc, List.singleton_append] at heq
      exact entersDirectory_concat.mpr (hnames.between front name below heq hbelow).2

/-- The names of what is looked at are proper, and there is at least one. -/
theorem entryName_of_lookedAt (hroot : tree.get? root = some (.directory entries))
    (h : FileTree.WellNamed (.directory entries)) {names : Place}
    (hnames : LookedAt tree root settings ignored names) :
    (∀ name ∈ names, EntryName name) ∧ ∃ above name, names = above ++ [name] := by
  obtain ⟨leaf, -, -, hlisted⟩ := mem_listing_of_lookedAt hroot h hnames
  exact entryName_of_mem_listing h hlisted

/-- **What is listed, counts as a file and is admitted** is what is looked at. -/
theorem mem_found_iff (hroot : tree.get? root = some (.directory entries))
    (h : FileTree.WellNamed (.directory entries)) {names : Place} :
    (∃ leaf, (names, leaf) ∈
        FileTree.listing (entersDirectory settings ignored) (.directory entries) ∧
          (countsAsFile tree root names leaf && admits settings ignored names) = true) ↔
      LookedAt tree root settings ignored names := by
  constructor
  · rintro ⟨leaf, hlisted, hadmitted⟩
    exact lookedAt_of_mem_listing hroot h hlisted hadmitted
  · intro hnames
    obtain ⟨leaf, hfound, hleaf, hlisted⟩ := mem_listing_of_lookedAt hroot h hnames
    obtain ⟨-, front, last, rfl⟩ := entryName_of_lookedAt hroot h hnames
    refine ⟨leaf, hlisted, ?_⟩
    rw [Bool.and_eq_true, countsAsFile_iff hleaf hfound, admits_concat]
    exact ⟨hnames.file, hnames.isBinary_eq_false last (by rw [List.getLast?_concat]),
      hnames.ignored_eq_false⟩

/-- The path of what is listed shows its names. -/
theorem path_at_of_mem_listing (h : FileTree.WellNamed (.directory entries))
    {enters : Place → Bool} (hentry : entry ∈ FileTree.listing enters (.directory entries)) :
    (SourceFile.at root entry.1).path = (pathOf entry.1).shown :=
  SourceFile.path_at_of_entryName (entryName_of_mem_listing h hentry).1

/-! ## The order of what is found -/

/-- The bytes of a path that is shown are those of its names where these are texts. -/
theorem partBytes_shown_pathOf {names : Place} (hne : names ≠ [])
    (h : ∀ name ∈ names, EntryName name) (htext : ∀ name ∈ names, name.IsText) :
    partBytes (pathOf names).shown = names.map RawText.bytes := by
  rw [partBytes, splitText_shown_pathOf hne h, List.map_map]
  exact List.map_congr_left fun name hname => congrArg RawText.bytes (htext name hname)

/-- What is found comes in the order of the bytes of its paths where all names are texts. -/
theorem pairwise_discover (hroot : tree.get? root = some (.directory entries))
    (h : FileTree.WellNamed (.directory entries))
    (htext : FileTree.TextNamed (.directory entries)) :
    (discover tree root settings ignored).Pairwise
      fun a b => partBytes a.path < partBytes b.path := by
  rw [discover_eq hroot h, List.pairwise_map]
  refine ((FileTree.pairwise_listing h _).imp_of_mem fun {a b} ha hb hab => ?_).filter _
  have hpath : ∀ {entry : Place × FileTree},
      entry ∈ FileTree.listing (entersDirectory settings ignored) (.directory entries) →
        partBytes (SourceFile.at root entry.1).path = entry.1.map RawText.bytes := by
    intro entry hentry
    obtain ⟨hnames, above, name, heq⟩ := entryName_of_mem_listing h hentry
    obtain ⟨⟨hfound, -⟩, -⟩ := (FileTree.mem_listing_iff h).mp hentry
    rw [path_at_of_mem_listing h hentry,
      partBytes_shown_pathOf (by simp [heq]) hnames (htext.of_get? hfound).2]
  rw [hpath ha, hpath hb]
  exact List.map_lt (fun _ _ hless => hless) hab

theorem nodup_paths_discover (hroot : tree.get? root = some (.directory entries))
    (h : FileTree.WellNamed (.directory entries))
    (htext : FileTree.TextNamed (.directory entries)) :
    ((discover tree root settings ignored).map SourceFile.path).Nodup := by
  rw [List.Nodup, List.pairwise_map]
  refine (pairwise_discover hroot h htext).imp fun {a b} hab heq => ?_
  rw [heq] at hab
  exact List.lt_irrefl _ hab

/-! ## Other roots -/

theorem mem_discover_iff (hroot : tree.get? root = some (.directory entries))
    (h : FileTree.WellNamed (.directory entries)) {file : SourceFile} :
    file ∈ discover tree root settings ignored ↔
      ∃ names, LookedAt tree root settings ignored names ∧ file = SourceFile.at root names := by
  rw [discover_eq hroot h]
  constructor
  · intro hfile
    obtain ⟨entry, hentry, rfl⟩ := List.mem_map.mp hfile
    exact ⟨entry.1, (mem_found_iff hroot h).mp ⟨entry.2, List.mem_filter.mp hentry⟩, rfl⟩
  · rintro ⟨names, hnames, rfl⟩
    obtain ⟨leaf, hentry⟩ := (mem_found_iff hroot h).mpr hnames
    exact List.mem_map.mpr ⟨(names, leaf), List.mem_filter.mpr hentry, rfl⟩

theorem path_at_of_lookedAt (hroot : tree.get? root = some (.directory entries))
    (h : FileTree.WellNamed (.directory entries)) {names : Place}
    (hnames : LookedAt tree root settings ignored names) :
    (SourceFile.at root names).path = (pathOf names).shown :=
  SourceFile.path_at_of_entryName (entryName_of_lookedAt hroot h hnames).1

/-- No file that is found has an empty path. -/
theorem path_ne_empty (hroot : tree.get? root = some (.directory entries))
    (h : FileTree.WellNamed (.directory entries)) {file : SourceFile}
    (hfile : file ∈ discover tree root settings ignored) : file.path ≠ "" := by
  obtain ⟨names, hnames, rfl⟩ := (mem_discover_iff hroot h).mp hfile
  obtain ⟨hproper, above, name, heq⟩ := entryName_of_lookedAt hroot h hnames
  rw [path_at_of_lookedAt hroot h hnames, Ne, RawText.shown_eq_empty_iff]
  intro hempty
  -- no names at all make the empty path
  have hnil : names = [] := EntryName.pathOf_injective hproper (by simp) hempty
  rw [heq] at hnil
  simp at hnil

end

end Cartograph
