import Cartograph.Proofs.Imports.Dotted
import Cartograph.Proofs.Imports.Passes

/-!
# Which imports can be placed

A resolver can place an import if one of its files has one of the names that are looked for. The
order of the files tells to which file an import leads, but not whether it leads to any. So a
resolver for more files can place whatever a resolver for fewer files can (`Resolver.Below`), and
the same holds for the resolvers of both families together (`exists_target?_of_subset`).
-/

namespace Cartograph

/-! ## Dotted paths -/

namespace Dotted

variable {files : List SourceFile} {module : String}

/-- A dotted path means a file exactly when it is the dotted path of a file or the end of one. -/
theorem isSome_find?_iff : ((Index.ofFiles files).find? module).isSome = true ↔
    ∃ file ∈ files, modulePath file.path = module ∨ module ∈ suffixes (modulePath file.path) := by
  rw [find?_ofFiles, Option.isSome_map, meant?]
  split
  · rename_i found hfound
    have heq : modulePath found.path = module := by simpa using List.find?_some hfound
    exact iff_of_true rfl ⟨found, List.mem_of_find?_eq_some hfound, Or.inl heq⟩
  · rename_i hnone
    rw [List.find?_eq_none] at hnone
    rw [List.find?_isSome]
    refine exists_congr fun file => and_congr_right fun hfile => ?_
    rw [List.contains_iff_mem, or_iff_right]
    exact fun heq => hnone file hfile (beq_iff_eq.mpr heq)

/-- **A dotted path can be placed** exactly when one of its fronts means a file. -/
theorem isSome_resolve_iff : ((Index.ofFiles files).resolve module).isSome = true ↔
    ∃ front ∈ prefixes module, ∃ file ∈ files,
      modulePath file.path = front ∨ front ∈ suffixes (modulePath file.path) := by
  rw [Index.resolve, List.findSome?_isSome_iff]
  simp only [isSome_find?_iff]

end Dotted

/-! ## Relative paths -/

namespace Relative

variable {files : List SourceFile} {source target : String}

/-- A path may mean a file exactly when it is one of the paths by which some file may be meant. -/
theorem isSome_index_iff {key : String} :
    (index files)[key]?.isSome = true ↔ ∃ file ∈ files, key ∈ keys file.path := by
  rw [index, Table.getElem?_lastWins_names, Option.isSome_map, List.find?_isSome]
  simp only [List.mem_reverse, List.contains_iff_mem]

/-- **A relative path can be placed** exactly when it begins with a dot, does not lead out of the
repository, and one of the paths that are tried may mean a file. -/
theorem isSome_resolveIn_iff : (resolveIn (index files) source target).isSome = true ↔
    Text.startsWith target "." = true ∧ ∃ path, joinPath? (directoryOf source) target = some path ∧
      ∃ candidate ∈ candidates path, ∃ file ∈ files, candidate ∈ keys file.path := by
  unfold resolveIn
  split
  · rename_i hdot
    cases hjoin : joinPath? (directoryOf source) target with
    | none => simp
    | some path =>
        simp only [hdot, true_and, Option.some.injEq, exists_eq_left', List.findSome?_isSome_iff,
          isSome_index_iff]
  · rename_i hdot
    simp [hdot]

end Relative

/-! ## Resolvers for more files -/

namespace Resolver

/-- The second resolver owns and can place all that the first one does. -/
structure Below (r q : Resolver) : Prop where
  owns : ∀ id, r.owns id = true → q.owns id = true
  resolve : ∀ source target, (r.resolve source target).isSome = true →
    (q.resolve source target).isSome = true

variable {files more : List SourceFile} {r q : Resolver}

/-- Whatever import the first resolver sends on, the second one sends somewhere too. -/
theorem Below.isSome_target? (h : r.Below q) {edge : Edge}
    (hsome : (r.target? edge).isSome = true) : (q.target? edge).isSome = true := by
  obtain ⟨target, htarget⟩ := Option.isSome_iff_exists.mp hsome
  obtain ⟨hkind, howns, module, hmodule, hresolve⟩ := target?_eq_some_iff.mp htarget
  obtain ⟨other, hother⟩ := Option.isSome_iff_exists.mp
    (h.resolve edge.source module (Option.isSome_iff_exists.mpr ⟨target, hresolve⟩))
  exact Option.isSome_iff_exists.mpr ⟨other, target?_eq_some_iff.mpr
    ⟨hkind, h.owns _ howns, module, hmodule, hother⟩⟩

theorem below_dotted (h : files ⊆ more) : (Dotted.resolver files).Below (Dotted.resolver more) where
  owns id hid := by
    obtain ⟨file, hfile, rfl⟩ := BuiltFrom.dotted.contains_iff.mp hid
    exact BuiltFrom.dotted.contains_iff.mpr ⟨file, h hfile, rfl⟩
  resolve source target hsome := by
    rw [Dotted.resolve_resolver, Dotted.isSome_resolve_iff] at hsome ⊢
    obtain ⟨front, hfront, file, hfile, hmeant⟩ := hsome
    exact ⟨front, hfront, file, h hfile, hmeant⟩

theorem below_relative (h : files ⊆ more) :
    (Relative.resolver files).Below (Relative.resolver more) where
  owns id hid := by
    obtain ⟨file, hfile, rfl⟩ := BuiltFrom.relative.contains_iff.mp hid
    exact BuiltFrom.relative.contains_iff.mpr ⟨file, h hfile, rfl⟩
  resolve source target hsome := by
    rw [Relative.resolve_resolver, Relative.isSome_resolveIn_iff] at hsome ⊢
    obtain ⟨hdot, path, hjoin, candidate, hcandidate, file, hfile, hkey⟩ := hsome
    exact ⟨hdot, path, hjoin, candidate, hcandidate, file, h hfile, hkey⟩

end Resolver

/-! ## Both families -/

section

variable {files more : List SourceFile} {edge : Edge}

/-- Files of one family are among more files of that family. -/
theorem filesOf_subset (h : files ⊆ more) (language : Language) :
    filesOf language files ⊆ filesOf language more := by
  intro file hfile
  exact mem_filesOf.mpr ⟨h (mem_filesOf.mp hfile).1, (mem_filesOf.mp hfile).2⟩

/-- **Resolvers for more files** can place at least the imports that those for fewer files can. -/
theorem exists_target?_of_subset (h : files ⊆ more)
    (hsome : ∃ r ∈ resolvers files, (r.target? edge).isSome = true) :
    ∃ r ∈ resolvers more, (r.target? edge).isSome = true := by
  obtain ⟨r, hr, hsome⟩ := hsome
  rcases List.mem_pair.mp hr with rfl | rfl
  · exact ⟨_, List.mem_pair.mpr (Or.inl rfl),
      (Resolver.below_dotted (filesOf_subset h .python)).isSome_target? hsome⟩
  · exact ⟨_, List.mem_pair.mpr (Or.inr rfl),
      (Resolver.below_relative (filesOf_subset h .script)).isSome_target? hsome⟩

/-- **What becomes of any edge**: the first resolver that can place it sends it on, and if there is
none it stays as it is. -/
theorem redirectAll_cases (files : List SourceFile) (edge : Edge) :
    (∃ r ∈ resolvers files, ∃ id, r.target? edge = some id ∧
        redirectAll files edge = { edge with target := id }) ∨
      (∀ r ∈ resolvers files, r.target? edge = none) ∧ redirectAll files edge = edge := by
  have hall : redirectAll files edge = (Relative.resolver (filesOf .script files)).redirect
      ((Dotted.resolver (filesOf .python files)).redirect edge) := rfl
  cases hp : (Dotted.resolver (filesOf .python files)).target? edge with
  | some id =>
      -- what has been sent to a file is passed over by the next resolver
      have hnext := Resolver.target?_redirect_of_eq_some .dotted hp
        (Relative.resolver (filesOf .script files))
      refine Or.inl ⟨_, List.mem_pair.mpr (Or.inl rfl), id, hp, ?_⟩
      rw [hall, Resolver.redirect_of_target?_eq_none hnext,
        Resolver.redirect_of_target?_eq_some hp]
  | none =>
      rw [Resolver.redirect_of_target?_eq_none hp] at hall
      cases hq : (Relative.resolver (filesOf .script files)).target? edge with
      | some id =>
          refine Or.inl ⟨_, List.mem_pair.mpr (Or.inr rfl), id, hq, ?_⟩
          rw [hall, Resolver.redirect_of_target?_eq_some hq]
      | none =>
          refine Or.inr ⟨fun r hr => ?_, ?_⟩
          · rcases List.mem_pair.mp hr with rfl | rfl
            · exact hp
            · exact hq
          · rw [hall, Resolver.redirect_of_target?_eq_none hq]

end

end Cartograph
