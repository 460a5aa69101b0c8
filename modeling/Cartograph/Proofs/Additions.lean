import Cartograph.Proofs.Conservation
import Cartograph.Proofs.Imports.Placing
import Cartograph.Proofs.Traces

/-!
# Files that are added

When files are added to a repository, an import of an old file may come to lead to a new one: the
tables of the resolvers have more entries, and longer names may be found. Nothing else changes for
the old files. Their identifiers and edges stay, and an import that could be placed still can be
(`added_files_keep`).
-/

namespace Cartograph

/-- Among these files the placeholder of an import stands for `file`: there the resolvers for the
files lead the edge, one after the other. -/
structure Places (files : List SourceFile) (edge : Edge) (file : SourceFile) : Prop where
  mem : file ∈ files
  unresolved : edge.unresolved?.isSome = true
  redirect_eq : redirectAll files edge = { edge with target := file.id }

/-- The graph `k` of more files has all that the graph `g` of some files has, when imports have been
resolved and edges settled in both. -/
structure KeepsAll (files more : List SourceFile) (g k : Graph) : Prop where
  ids_subset : (g.finish files).ids ⊆ (k.finish more).ids
  /-- Edges that are no imports stay, as far as triples go. -/
  triples_subset : ∀ triple : String × String × EdgeKind, triple.2.2 ≠ .imports →
    triple ∈ (g.finish files).edges.toList.map Edge.triple →
      triple ∈ (k.finish more).edges.toList.map Edge.triple
  /-- An import that could be placed is still there and still leads to a file. -/
  placed : ∀ edge ∈ g.edges, ∀ file, Places files edge file →
    edge ∈ k.edges ∧ ∃ other, Places more edge other ∧
      (edge.source, other.id, EdgeKind.imports) ∈ (k.finish more).edges.toList.map Edge.triple

section

variable {files more : List SourceFile} {edge : Edge}

/-! ## Imports that can be placed -/

/-- An import can be placed exactly when some resolver can tell where it leads. -/
theorem exists_places_iff : (∃ file, Places files edge file) ↔
    ∃ r ∈ resolvers files, (r.target? edge).isSome = true := by
  constructor
  · rintro ⟨file, -, hunresolved, hredirect⟩
    rcases redirectAll_cases files edge with ⟨r, hr, id, hid, -⟩ | ⟨-, hself⟩
    · exact ⟨r, hr, Option.isSome_iff_exists.mpr ⟨id, hid⟩⟩
    · -- an edge that stays as it is leads to a placeholder and not to a file
      have htarget : edge.target = file.id := congrArg Edge.target (hself.symm.trans hredirect)
      have hnone : edge.unresolved? = none := by
        rw [Edge.unresolved?, htarget,
          placeholderTarget?_eq_none (ne_placeholderId (by simp [SourceFile.id])), ite_self]
      rw [hnone] at hunresolved
      cases hunresolved
  · rintro ⟨r, hr, hsome⟩
    rcases redirectAll_cases files edge with ⟨q, hq, id, hid, hredirect⟩ | ⟨hnone, -⟩
    · obtain ⟨hkind, -, module, hmodule, hresolve⟩ := Resolver.target?_eq_some_iff.mp hid
      obtain ⟨file, hfile, -, rfl⟩ := Resolver.exists_of_resolve hq hresolve
      refine ⟨file, hfile, ?_, hredirect⟩
      rw [Edge.unresolved?, if_pos hkind, hmodule, Option.isSome_some]
    · rw [hnone r hr] at hsome
      cases hsome

/-- **An import stays placed** when files are added, if perhaps somewhere else. -/
theorem Places.exists_of_subset {file : SourceFile} (h : Places files edge file)
    (hsubset : files ⊆ more) : ∃ other, Places more edge other :=
  exists_places_iff.mpr (exists_target?_of_subset hsubset (exists_places_iff.mp ⟨file, h⟩))

theorem Places.kind_eq {file : SourceFile} (h : Places files edge file) : edge.kind = .imports := by
  by_contra hkind
  have hunresolved := h.unresolved
  rw [Edge.unresolved?, if_neg hkind] at hunresolved
  cases hunresolved

/-! ## What files have together -/

variable {tree other : FileTree} {settings : ExtractionSettings}

/-- The files hold the same in both trees. -/
def HoldSame (files : List SourceFile) (tree other : FileTree) : Prop :=
  ∀ file ∈ files, other.readBytes [] file.location = tree.readBytes [] file.location

/-- So they contribute the same. -/
theorem HoldSame.contribution_eq (h : HoldSame files tree other) {file : SourceFile}
    (hfile : file ∈ files) (settings : ExtractionSettings) :
    file.contribution other settings = file.contribution tree settings :=
  SourceFile.contribution_of_read_eq (h file hfile) rfl

/-- Every identifier of the files is one of more files. -/
theorem ids_combined_subset (hsubset : files ⊆ more) (hsame : HoldSame files tree other) :
    (combined tree settings files).ids ⊆ (combined other settings more).ids := by
  intro id hid
  rw [← combined_indexed.contains_iff, contains_combined] at hid ⊢
  obtain ⟨file, hfile, hknown⟩ := hid
  refine ⟨file, hsubset hfile, ?_⟩
  rwa [hsame.contribution_eq hfile]

/-- Every edge of the files is one of more files. -/
theorem mem_edges_combined_of_subset (hsubset : files ⊆ more) (hsame : HoldSame files tree other)
    (hedge : edge ∈ (combined tree settings files).edges) :
    edge ∈ (combined other settings more).edges := by
  rw [← Array.mem_toList_iff, edges_combined, List.mem_flatMap] at hedge ⊢
  obtain ⟨file, hfile, hmem⟩ := hedge
  refine ⟨file, hsubset hfile, ?_⟩
  rwa [hsame.contribution_eq hfile]

/-- **A placed import is there in the end**: it leads from a file to a file. -/
theorem Places.mem_triples_finish {file : SourceFile} (h : Places files edge file)
    (hedge : edge ∈ (combined tree settings files).edges) :
    (edge.source, file.id, EdgeKind.imports)
      ∈ ((combined tree settings files).finish files).edges.toList.map Edge.triple := by
  rw [Graph.mem_triples_finish]
  refine ⟨edge, Array.mem_toList_iff.mpr hedge, ?_, ?_⟩
  · rw [h.redirect_eq, Edge.triple, h.kind_eq]
  · rw [← Array.mem_toList_iff, edges_combined, List.mem_flatMap] at hedge
    obtain ⟨source, hsource, hmem⟩ := hedge
    obtain ⟨module, -, heq⟩ := eq_importEdge_of_mem hmem h.kind_eq
    rw [h.redirect_eq, Graph.holdsEnds, Bool.and_eq_true, heq]
    exact ⟨contains_combined_file hsource, contains_combined_file h.mem⟩

end

/-- **Added files take nothing away.** When files are added to others that hold what they held
before, the graph of all of them has every identifier and every edge other than imports that the
graph of the old ones has, and each import of an old file that could be placed is placed still,
though it may lead to another file. -/
theorem added_files_keep {files more : List SourceFile} (hsubset : files ⊆ more)
    {tree other : FileTree} (hsame : HoldSame files tree other) {host : Host}
    {settings : ExtractionSettings} (hpool : host.pool settings.workers = .ok ()) :
    ∃ g k, buildGraph host tree settings files (undisturbed files) = .ok g ∧
      buildGraph host other settings more (undisturbed more) = .ok k ∧
        KeepsAll files more g k := by
  refine ⟨_, _, buildGraph_undisturbed hpool, buildGraph_undisturbed hpool, ?_, ?_, ?_⟩
  · rw [Graph.ids, Graph.ids, Graph.nodes_finish, Graph.nodes_finish]
    exact ids_combined_subset hsubset hsame
  · intro triple hkind htriple
    rw [mem_triples_finish_of_ne_imports hkind] at htriple ⊢
    obtain ⟨file, hfile, hmem⟩ := htriple
    refine ⟨file, hsubset hfile, ?_⟩
    rwa [hsame.contribution_eq hfile]
  · intro edge hedge file hplaces
    have hkept : edge ∈ (combined other settings more).edges :=
      mem_edges_combined_of_subset hsubset hsame hedge
    obtain ⟨target, htarget⟩ := hplaces.exists_of_subset hsubset
    exact ⟨hkept, target, htarget, htarget.mem_triples_finish hkept⟩

/-- A file that imports a name, and the file that has the name. -/
def oneNamesake : FileTree :=
  .directory [("repo", .directory
    [("main.py", .file (Text.Utf8.encode "from pkg.util import f\nclass A(Base): pass\n")),
      ("pkg.py", .file [])])]

/-- Later there is a file that has a longer part of the name. -/
def twoNamesakes : FileTree :=
  .directory [("repo", .directory
    [("main.py", .file (Text.Utf8.encode "from pkg.util import f\nclass A(Base): pass\n")),
      ("pkg", .directory [("util.py", .file [])]), ("pkg.py", .file [])])]

/-- The new file takes the import over, and nothing is lost. -/
theorem added_files_keep_namesake :
    [SourceFile.at ["repo"] ["main.py"], SourceFile.at ["repo"] ["pkg.py"]]
        ⊆ [SourceFile.at ["repo"] ["main.py"], SourceFile.at ["repo"] ["pkg", "util.py"],
            SourceFile.at ["repo"] ["pkg.py"]] ∧
      HoldSame [SourceFile.at ["repo"] ["main.py"], SourceFile.at ["repo"] ["pkg.py"]]
        oneNamesake twoNamesakes ∧
      ∃ g k, buildGraph {} oneNamesake {}
          [SourceFile.at ["repo"] ["main.py"], SourceFile.at ["repo"] ["pkg.py"]]
          [.passed, .passed] = .ok g ∧
        buildGraph {} twoNamesakes {}
          [SourceFile.at ["repo"] ["main.py"], SourceFile.at ["repo"] ["pkg", "util.py"],
            SourceFile.at ["repo"] ["pkg.py"]] [.passed, .passed, .passed] = .ok k ∧
        KeepsAll [SourceFile.at ["repo"] ["main.py"], SourceFile.at ["repo"] ["pkg.py"]]
          [SourceFile.at ["repo"] ["main.py"], SourceFile.at ["repo"] ["pkg", "util.py"],
            SourceFile.at ["repo"] ["pkg.py"]] g k := by
  have hsubset : [SourceFile.at ["repo"] ["main.py"], SourceFile.at ["repo"] ["pkg.py"]]
      ⊆ [SourceFile.at ["repo"] ["main.py"], SourceFile.at ["repo"] ["pkg", "util.py"],
          SourceFile.at ["repo"] ["pkg.py"]] := by
    simp
  have hsame : HoldSame [SourceFile.at ["repo"] ["main.py"], SourceFile.at ["repo"] ["pkg.py"]]
      oneNamesake twoNamesakes := by
    intro file hfile
    simp only [List.mem_cons, List.not_mem_nil, or_false] at hfile
    rcases hfile with rfl | rfl
    · cbv
    · cbv
  exact ⟨hsubset, hsame, added_files_keep hsubset hsame rfl⟩

end Cartograph
