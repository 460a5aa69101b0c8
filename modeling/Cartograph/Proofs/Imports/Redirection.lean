import Cartograph.Proofs.Paths
import Cartograph.Proofs.Pipeline

/-!
# Who redirects an import

Each family of languages has a resolver that owns the files of the family and leads to such files
only. As the path of a file tells its language, an import of a file is for one resolver alone, and
where that one sends it is where it leads in the end (`redirectAll_importEdge`).
-/

namespace Cartograph

/-! ## What a resolver knows -/

theorem mem_filesOf {language : Language} {files : List SourceFile} {file : SourceFile} :
    file ∈ filesOf language files ↔ file ∈ files ∧ file.language = language := by
  simp [filesOf]

@[simp] theorem Dotted.language_resolver (files : List SourceFile) :
    (Dotted.resolver files).language = .python := rfl

@[simp] theorem Relative.language_resolver (files : List SourceFile) :
    (Relative.resolver files).language = .script := rfl

theorem Dotted.resolve_resolver (files : List SourceFile) (source target : String) :
    (Dotted.resolver files).resolve source target
      = (Dotted.Index.ofFiles files).resolve target := rfl

theorem Relative.resolve_resolver (files : List SourceFile) (source target : String) :
    (Relative.resolver files).resolve source target
      = Relative.resolveIn (Relative.index files) source target := rfl

/-- An entry of a table comes from the list that the table is built of. -/
theorem Table.exists_of_firstWins {entries : List (String × String)} {key id : String}
    (h : (Table.firstWins entries)[key]? = some id) : (key, id) ∈ entries := by
  rw [Table.getElem?_firstWins] at h
  obtain ⟨entry, hfind, rfl⟩ := Option.map_eq_some_iff.mp h
  have hkey : entry.1 = key := by simpa using List.find?_some hfind
  rw [← hkey]
  exact List.mem_of_find?_eq_some hfind

theorem Table.exists_of_lastWins {entries : List (String × String)} {key id : String}
    (h : (Table.lastWins entries)[key]? = some id) : (key, id) ∈ entries := by
  rw [Table.lastWins_eq] at h
  exact List.mem_reverse.mp (Table.exists_of_firstWins h)

/-- A dotted path leads to a file that the resolver was built from. -/
theorem Dotted.exists_of_resolve {files : List SourceFile} {module id : String}
    (h : (Dotted.Index.ofFiles files).resolve module = some id) : ∃ file ∈ files, file.id = id := by
  obtain ⟨key, -, hkey⟩ := List.exists_of_findSome?_eq_some h
  unfold Dotted.Index.find? at hkey
  split at hkey
  · rename_i found hfound
    obtain rfl := Option.some.inj hkey
    obtain ⟨file, hfile, heq⟩ := List.mem_map.mp (Table.exists_of_firstWins hfound)
    exact ⟨file, hfile, congrArg Prod.snd heq⟩
  · obtain ⟨file, hfile, hentry⟩ := List.mem_flatMap.mp (Table.exists_of_firstWins hkey)
    obtain ⟨suffix, -, heq⟩ := List.mem_map.mp hentry
    exact ⟨file, hfile, congrArg Prod.snd heq⟩

/-- A relative path leads to a file that the resolver was built from. -/
theorem Relative.exists_of_resolveIn {files : List SourceFile} {source target id : String}
    (h : Relative.resolveIn (Relative.index files) source target = some id) :
    ∃ file ∈ files, file.id = id := by
  unfold Relative.resolveIn at h
  split at h
  · split at h
    · obtain ⟨candidate, -, hfound⟩ := List.exists_of_findSome?_eq_some h
      obtain ⟨file, hfile, hentry⟩ := List.mem_flatMap.mp (Table.exists_of_lastWins hfound)
      obtain ⟨key, -, heq⟩ := List.mem_map.mp hentry
      exact ⟨file, hfile, congrArg Prod.snd heq⟩
    · cases h
  · cases h

/-- The identifiers of some files, as a set. -/
theorem contains_ofList_ids {files : List SourceFile} {id : String} :
    (Std.HashSet.ofList (files.map SourceFile.id)).contains id = true ↔
      ∃ file ∈ files, file.id = id := by
  simp [Std.HashSet.contains_ofList]

namespace Resolver

variable {files : List SourceFile} {r : Resolver}

/-- A resolver owns the files of its family. -/
theorem owns_iff (hr : r ∈ resolvers files) {id : String} :
    r.owns id = true ↔ ∃ file ∈ files, file.language = r.language ∧ file.id = id := by
  have hfamily : ∀ language, (∃ file ∈ filesOf language files, file.id = id) ↔
      ∃ file ∈ files, file.language = language ∧ file.id = id := by
    intro language
    simp only [mem_filesOf, and_assoc]
  rcases List.mem_pair.mp hr with rfl | rfl
  · exact contains_ofList_ids.trans (hfamily .python)
  · exact contains_ofList_ids.trans (hfamily .script)

/-- A resolver leads to files of its family only. -/
theorem exists_of_resolve (hr : r ∈ resolvers files) {source target id : String}
    (h : r.resolve source target = some id) :
    ∃ file ∈ files, file.language = r.language ∧ file.id = id := by
  rcases List.mem_pair.mp hr with rfl | rfl
  · rw [Dotted.resolve_resolver] at h
    obtain ⟨file, hfile, hid⟩ := Dotted.exists_of_resolve h
    exact ⟨file, (mem_filesOf.mp hfile).1, (mem_filesOf.mp hfile).2, hid⟩
  · rw [Relative.resolve_resolver] at h
    obtain ⟨file, hfile, hid⟩ := Relative.exists_of_resolveIn h
    exact ⟨file, (mem_filesOf.mp hfile).1, (mem_filesOf.mp hfile).2, hid⟩

/-- No resolver leads to a placeholder. -/
theorem ne_placeholderId_of_resolve (hr : r ∈ resolvers files) {source target id : String}
    (h : r.resolve source target = some id) (t : String) : id ≠ placeholderId t := by
  obtain ⟨file, -, -, rfl⟩ := exists_of_resolve hr h
  exact ne_placeholderId (by simp [SourceFile.id]) t

/-- No resolver is for files of any language. -/
theorem language_ne_generic (hr : r ∈ resolvers files) : r.language ≠ .generic := by
  rcases List.mem_pair.mp hr with rfl | rfl
  · rw [Dotted.language_resolver]
    decide
  · rw [Relative.language_resolver]
    decide

end Resolver

/-! ## Imports of a file -/

@[simp] theorem unresolved?_importEdge (file : SourceFile) (target : String) :
    (importEdge file target).unresolved? = some target :=
  (if_pos rfl).trans (placeholderTarget?_placeholderId target)

/-- The path of each file tells its language. -/
def PathsTellLanguages (files : List SourceFile) : Prop :=
  ∀ a ∈ files, ∀ b ∈ files, a.path = b.path → a.language = b.language

/-- **An import is for the resolver of its own family** and no other. -/
theorem target?_importEdge {files : List SourceFile} (hpaths : PathsTellLanguages files)
    {r : Resolver} (hr : r ∈ resolvers files) {file : SourceFile} (hfile : file ∈ files)
    (target : String) : r.target? (importEdge file target)
      = if file.language = r.language then r.resolve file.id target else none := by
  have howns : r.owns file.id = true ↔ file.language = r.language := by
    rw [Resolver.owns_iff hr]
    constructor
    · rintro ⟨other, hother, hlanguage, hid⟩
      rw [← hlanguage]
      exact hpaths file hfile other hother (fileId_injective hid.symm)
    · exact fun hlanguage => ⟨file, hfile, hlanguage, rfl⟩
  rw [Resolver.target?, unresolved?_importEdge]
  exact if_congr howns rfl rfl

section

variable {files : List SourceFile} {file : SourceFile} {target : String}

/-- An import leads where the resolver of its family sends it. -/
theorem redirectAll_importEdge (hpaths : PathsTellLanguages files) (hfile : file ∈ files)
    {r : Resolver} (hr : r ∈ resolvers files) (hlanguage : file.language = r.language) {id : String}
    (h : r.resolve file.id target = some id) :
    redirectAll files (importEdge file target) = { importEdge file target with target := id } := by
  have hsent : r.redirect (importEdge file target)
      = { importEdge file target with target := id } := by
    rw [Resolver.redirect, target?_importEdge hpaths hr hfile, if_pos hlanguage, h]
  have hother : ∀ q ∈ resolvers files, file.language ≠ q.language →
      q.redirect (importEdge file target) = importEdge file target := by
    intro q hq hne
    rw [Resolver.redirect, target?_importEdge hpaths hq hfile, if_neg hne]
  -- what has been sent to a file is no placeholder any more, so the next resolver passes it over
  have hstays : ∀ q : Resolver, q.redirect { importEdge file target with target := id }
      = { importEdge file target with target := id } := by
    intro q
    apply q.redirect_of_unresolved?_eq_none
    rw [Edge.unresolved?, placeholderTarget?_eq_none (Resolver.ne_placeholderId_of_resolve hr h),
      ite_self]
  show (Relative.resolver (filesOf .script files)).redirect
    ((Dotted.resolver (filesOf .python files)).redirect (importEdge file target)) = _
  rcases List.mem_pair.mp hr with rfl | rfl
  · rw [hsent, hstays]
  · have hpython : file.language ≠ (Dotted.resolver (filesOf .python files)).language := by
      rw [hlanguage, Dotted.language_resolver, Relative.language_resolver]
      decide
    rw [hother _ (List.mem_pair.mpr (Or.inl rfl)) hpython, hsent]

/-- An import that the resolver of its family cannot place stays a placeholder. -/
theorem redirectAll_importEdge_eq_self (hpaths : PathsTellLanguages files) (hfile : file ∈ files)
    (h : ∀ r ∈ resolvers files, file.language = r.language → r.resolve file.id target = none) :
    redirectAll files (importEdge file target) = importEdge file target := by
  have hall : ∀ r ∈ resolvers files,
      r.redirect (importEdge file target) = importEdge file target := by
    intro r hr
    rw [Resolver.redirect, target?_importEdge hpaths hr hfile]
    by_cases hlanguage : file.language = r.language
    · rw [if_pos hlanguage, h r hr hlanguage]
    · rw [if_neg hlanguage]
  exact List.foldlRecOn (resolvers files) (fun edge r => r.redirect edge)
    (motive := fun edge => edge = importEdge file target) rfl
    fun edge hedge r hr => by rw [hedge, hall r hr]

/-- **What becomes of an import**: it leads where the resolver of its family sends it, or it stays
as it is. -/
theorem redirectAll_importEdge_cases (hpaths : PathsTellLanguages files) (hfile : file ∈ files)
    (target : String) :
    (∃ r ∈ resolvers files, file.language = r.language ∧ ∃ id, r.resolve file.id target = some id ∧
        redirectAll files (importEdge file target) = { importEdge file target with target := id }) ∨
      redirectAll files (importEdge file target) = importEdge file target := by
  by_cases hplaced : ∃ r ∈ resolvers files, file.language = r.language ∧
      ∃ id, r.resolve file.id target = some id
  · obtain ⟨r, hr, hlanguage, id, hid⟩ := hplaced
    exact Or.inl ⟨r, hr, hlanguage, id, hid,
      redirectAll_importEdge hpaths hfile hr hlanguage hid⟩
  · refine Or.inr (redirectAll_importEdge_eq_self hpaths hfile fun r hr hlanguage => ?_)
    rw [Option.eq_none_iff_forall_ne_some]
    exact fun id hid => hplaced ⟨r, hr, hlanguage, id, hid⟩

end

end Cartograph
