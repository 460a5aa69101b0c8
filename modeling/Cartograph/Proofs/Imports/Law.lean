import Cartograph.Proofs.Imports.Redirection
import Mathlib

/-!
# The law of imports

Which import edges the report on a repository has: those that lead from a file which was looked into
to the file where the resolver of its family sends one of its imports, and no others. No import is
lost on the way, none is redirected by another family, and none leads anywhere but to a file.
-/

namespace Cartograph

/-- The file has been looked into and imports what `target` names. -/
def SourceFile.Imports (file : SourceFile) (tree : FileTree) (settings : ExtractionSettings)
    (target : String) : Prop :=
  ∃ fragment, file.fragment? tree settings = .ok fragment ∧
    (file.id, placeholderId target, EdgeKind.imports) ∈ fragment.edges.toList.map Edge.triple

/-- The imports of a report on the repository at `root` are those that resolvers can place. -/
structure Report.ImportsResolved (report : Report) (tree : FileTree) (settings : Settings)
    (root : Place) : Prop where
  /-- An import edge stands for an import of a file and leads where the resolver of the family of
  the file sends it; the resolver knows all files of the family. -/
  mem_iff : ∀ source target, (source, target, EdgeKind.imports) ∈ report.edges.map Edge.triple ↔
    ∃ file ∈ repositoryFiles tree root settings.discovery,
      ∃ r ∈ resolvers (repositoryFiles tree root settings.discovery),
        file.language = r.language ∧ file.id = source ∧
          ∃ module, file.Imports tree settings.extraction module ∧
            r.resolve source module = some target
  /-- An import edge links the nodes of two files of one family. -/
  links_files : ∀ edge ∈ report.edges, edge.kind = .imports →
    ∃ a ∈ repositoryFiles tree root settings.discovery,
      ∃ b ∈ repositoryFiles tree root settings.discovery,
        (a.language = b.language ∧ a.language ≠ .generic) ∧
          (edge.source = a.id ∧ edge.target = b.id) ∧
            a.node ∈ report.nodes.map RatedNode.node ∧ b.node ∈ report.nodes.map RatedNode.node
  /-- No two import edges link the same files. -/
  once : ∀ edge ∈ report.edges, edge.kind = .imports →
    (report.edges.map Edge.triple).count edge.triple = 1

section

variable {tree : FileTree} {settings : ExtractionSettings} {files : List SourceFile}

/-! ## Imports among the edges of files -/

/-- An import edge that a file contributes stands for one of its imports. -/
theorem eq_importEdge_of_mem {file : SourceFile} {edge : Edge}
    (h : edge ∈ (file.contribution tree settings).edges.toList) (hkind : edge.kind = .imports) :
    ∃ target ∈ file.importTargets tree settings, edge = importEdge file target := by
  rcases (file.grown_contribution tree settings).mem_edges h with hother | himport
  · exact absurd hkind hother.1
  · exact himport

/-- **What a file imports** is what its fragment was told to import while it grew. -/
theorem SourceFile.imports_iff {file : SourceFile} {target : String} :
    file.Imports tree settings target ↔ target ∈ file.importTargets tree settings := by
  constructor
  · rintro ⟨fragment, hfragment, hmem⟩
    have hcontribution : file.contribution tree settings = fragment := by
      rw [SourceFile.contribution, hfragment]
    obtain ⟨edge, hedge, htriple⟩ := List.mem_map.mp hmem
    simp only [Edge.triple, Prod.mk.injEq] at htriple
    rw [← hcontribution] at hedge
    obtain ⟨other, hother, rfl⟩ := eq_importEdge_of_mem hedge htriple.2.2
    rwa [← placeholderId_injective htriple.2.1]
  · intro h
    have hedge := (file.grown_contribution tree settings).importEdge_mem h
    exact ⟨_, SourceFile.fragment?_of_mem_edges hedge, List.mem_map.mpr ⟨_, hedge, rfl⟩⟩

/-- An edge that has both of its ends leads to no placeholder. -/
theorem unresolved?_of_holdsEnds {edge : Edge}
    (h : (combined tree settings files).holdsEnds edge = true) : edge.unresolved? = none := by
  rw [Graph.holdsEnds, Bool.and_eq_true] at h
  obtain ⟨n, hn, hid⟩ := List.mem_map.mp (combined_indexed.contains_iff.mp h.2)
  have htarget : placeholderTarget? edge.target = none := by
    rw [← hid]
    exact placeholderTarget?_eq_none (ne_placeholderId_of_mem_combined (Array.mem_toList_iff.mp hn))
  rw [Edge.unresolved?, htarget, ite_self]

/-- An import that a resolver sends somewhere has both of its ends. -/
theorem holdsEnds_importEdge {file : SourceFile} (hfile : file ∈ files) {r : Resolver}
    (hr : r ∈ resolvers files) {source target id : String} (h : r.resolve source target = some id)
    (module : String) : (combined tree settings files).holdsEnds
      { importEdge file module with target := id } = true := by
  obtain ⟨other, hother, -, rfl⟩ := Resolver.exists_of_resolve hr h
  rw [Graph.holdsEnds, Bool.and_eq_true]
  exact ⟨contains_combined_file hfile, contains_combined_file hother⟩

/-! ## Import edges in the end -/

/-- **The law of imports** for the graph of some files. -/
theorem mem_imports_finish (hpaths : PathsTellLanguages files) {source target : String} :
    (source, target, EdgeKind.imports) ∈
        ((combined tree settings files).finish files).edges.toList.map Edge.triple ↔
      ∃ file ∈ files, ∃ r ∈ resolvers files, file.language = r.language ∧ file.id = source ∧
        ∃ module, file.Imports tree settings module ∧ r.resolve source module = some target := by
  rw [Graph.mem_triples_finish]
  constructor
  · rintro ⟨edge, hedge, htriple, hends⟩
    rw [edges_combined] at hedge
    obtain ⟨file, hfile, hedge⟩ := List.mem_flatMap.mp hedge
    have hkind : edge.kind = .imports := by
      rw [← kind_redirectAll files edge]
      exact congrArg (fun t => t.2.2) htriple
    obtain ⟨module, himports, rfl⟩ := eq_importEdge_of_mem hedge hkind
    -- an import that no resolver places would keep its placeholder and so lack an end
    rcases redirectAll_importEdge_cases hpaths hfile module with
      ⟨r, hr, hlanguage, id, hid, hredirect⟩ | hself
    · rw [hredirect] at htriple
      simp only [Edge.triple, importEdge, Prod.mk.injEq] at htriple
      obtain ⟨rfl, rfl, -⟩ := htriple
      exact ⟨file, hfile, r, hr, hlanguage, rfl, module, SourceFile.imports_iff.mpr himports, hid⟩
    · have hunresolved := unresolved?_of_holdsEnds hends
      rw [hself, unresolved?_importEdge] at hunresolved
      cases hunresolved
  · rintro ⟨file, hfile, r, hr, hlanguage, rfl, module, himports, hresolve⟩
    have hredirect := redirectAll_importEdge hpaths hfile hr hlanguage hresolve
    refine ⟨importEdge file module, ?_, by rw [hredirect]; rfl, ?_⟩
    · rw [edges_combined]
      exact List.mem_flatMap.mpr ⟨file, hfile,
        (file.grown_contribution tree settings).importEdge_mem (SourceFile.imports_iff.mp himports)⟩
    · rw [hredirect]
      exact holdsEnds_importEdge hfile hr hresolve module

end

/-! ## Nodes of files -/

section

variable {tree : FileTree} {root : Place} {settings : DiscoverySettings}

theorem pathsTellLanguages (tree : FileTree) (root : Place) (settings : DiscoverySettings) :
    PathsTellLanguages (repositoryFiles tree root settings) :=
  fun _ ha _ hb h => language_eq_of_path_eq ha hb h

/-- The node of every file of a repository is there: no other entity takes its identifier. -/
theorem node_mem_combined {file : SourceFile} (h : file ∈ repositoryFiles tree root settings)
    (extraction : ExtractionSettings) :
    file.node ∈ (combined tree extraction (repositoryFiles tree root settings)).nodes.toList := by
  have hknown : (combined tree extraction (repositoryFiles tree root settings)).contains file.id
      = true := contains_combined_file h
  obtain ⟨n, hn, hid⟩ := List.mem_map.mp (combined_indexed.contains_iff.mp hknown)
  obtain ⟨other, hother, hmem⟩ := mem_nodes_of_mem_combined (Array.mem_toList_iff.mp hn)
  have hnode := (other.grown_contribution tree extraction).eq_node_of_fileId hmem hid
  rw [hnode] at hid hn
  rwa [node_eq_of_path_eq h hother (fileId_injective hid).symm]

end

/-- **Which imports a report has.** Every repository gets a report, and its import edges are exactly
the imports that the resolvers can place. -/
theorem imports_resolved {host : Host} {tree : FileTree} {here root : Place} {path : RawText}
    (h : repositoryAt tree here path = .ok root) {settings : Settings}
    (hpool : host.pool settings.extraction.workers = .ok ()) :
    ∃ report, analyze host tree settings here path = .ok report ∧
      report.ImportsResolved tree settings root := by
  refine ⟨_, analyze_eq_ok h hpool, ?_⟩
  set files := repositoryFiles tree root settings.discovery with hfiles
  have hpaths : PathsTellLanguages files := pathsTellLanguages tree root settings.discovery
  have hnode : ∀ file ∈ files, file.node ∈
      (repositoryReport tree settings root).nodes.map RatedNode.node := by
    intro file hfile
    show file.node ∈ ((combined tree settings.extraction files).finish files).report.nodes.map
      RatedNode.node
    rw [Graph.nodes_report, Graph.nodes_finish]
    exact node_mem_combined hfile settings.extraction
  have hmem : ∀ source target, (source, target, EdgeKind.imports) ∈
      (repositoryReport tree settings root).edges.map Edge.triple ↔ _ :=
    fun source target => mem_imports_finish hpaths
  refine ⟨hmem, fun edge hedge hkind => ?_, fun edge hedge hkind => ?_⟩
  · have htriple : (edge.source, edge.target, EdgeKind.imports) ∈
        (repositoryReport tree settings root).edges.map Edge.triple := by
      rw [← hkind]
      exact List.mem_map_of_mem hedge
    obtain ⟨a, ha, r, hr, hlanguage, hsource, module, -, hresolve⟩ := (hmem _ _).mp htriple
    obtain ⟨b, hb, hfamily, htarget⟩ := Resolver.exists_of_resolve hr hresolve
    refine ⟨a, ha, b, hb, ⟨hlanguage.trans hfamily.symm, ?_⟩, ⟨hsource.symm, htarget.symm⟩,
      hnode a ha, hnode b hb⟩
    rw [hlanguage]
    exact Resolver.language_ne_generic hr
  · exact List.count_eq_one_of_mem (Graph.nodup_triples_finish _ _) (List.mem_map_of_mem hedge)

/-- A Python file and a script file that each import another file of their family. -/
def twoFamilies : FileTree :=
  .directory [("repo", .directory
    [("a.py", .file (Text.Utf8.encode "import b\nimport os\n")), ("b.py", .file []),
      ("m.js", .file (Text.Utf8.encode "require('./n');\n")), ("n.js", .file [])])]

/-- The imports of the four files are those that resolvers can place. -/
theorem importsResolved_twoFamilies : ∃ report, analyze {} twoFamilies {} [] "/repo" = .ok report ∧
    report.ImportsResolved twoFamilies {} ["repo"] :=
  imports_resolved (by cbv) rfl

end Cartograph
