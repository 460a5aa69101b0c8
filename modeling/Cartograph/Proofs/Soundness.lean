import Cartograph.Proofs.Pipeline
import Mathlib

/-!
# Reports are sound

Whatever the files of a repository hold, its report names every node once, has both ends of every
edge among its nodes, repeats no edge, and holds no placeholder. Nodes come from fragments, which
bring in no placeholder, and the last pass over the edges sees to the rest.
-/

namespace Cartograph

namespace Report

/-- The identifiers of the nodes of a report. -/
def ids (report : Report) : List String :=
  report.nodes.map fun rated => rated.node.id

/-- A report that names every node once, has the ends of all edges among its nodes, repeats no edge
and holds no placeholder. -/
structure Sound (report : Report) : Prop where
  nodup_ids : report.ids.Nodup
  ends_mem : ∀ edge ∈ report.edges, edge.source ∈ report.ids ∧ edge.target ∈ report.ids
  nodup_triples : (report.edges.map Edge.triple).Nodup
  ids_resolved : ∀ id ∈ report.ids, Text.startsWith id "module:" = false
  ends_resolved : ∀ edge ∈ report.edges, Text.startsWith edge.source "module:" = false ∧
    Text.startsWith edge.target "module:" = false

end Report

/-- What does not begin like a placeholder is none. -/
theorem startsWith_eq_false {id : String} (h : ∀ target, id ≠ placeholderId target) :
    Text.startsWith id "module:" = false := by
  have := placeholderTarget?_eq_none h
  simp only [placeholderTarget?, Text.stripStart?, Option.map_eq_none_iff] at this
  rw [Text.startsWith, ← placeholderMark, this]
  rfl

/-- The report on a graph names the nodes of the graph in their order. -/
theorem Graph.ids_report (g : Graph) : g.report.ids = g.ids := by
  rw [Report.ids, Graph.ids, ← g.nodes_report, List.map_map]
  rfl

/-- **The report on any files is sound**, whichever of them were reached. -/
theorem sound_report_finish (tree : FileTree) (settings : ExtractionSettings)
    (reached files : List SourceFile) (name : Option String) :
    Report.Sound { ((combined tree settings reached).finish files).report with
      repository := name } := by
  set g := combined tree settings reached with hg
  have hids : ∀ id, id ∈ (g.finish files).report.ids ↔ g.contains id = true := by
    intro id
    rw [Graph.ids_report, Graph.ids, Graph.nodes_finish, combined_indexed.contains_iff]
    rfl
  have hends : ∀ edge ∈ (g.finish files).report.edges,
      edge.source ∈ (g.finish files).report.ids ∧ edge.target ∈ (g.finish files).report.ids := by
    intro edge hedge
    have hheld := (Graph.mem_edges_finish.mp hedge).1
    rw [Graph.holdsEnds, Bool.and_eq_true] at hheld
    exact ⟨(hids _).mpr hheld.1, (hids _).mpr hheld.2⟩
  have hresolved : ∀ id ∈ (g.finish files).report.ids, Text.startsWith id "module:" = false := by
    intro id hid
    rw [Graph.ids_report, Graph.ids, Graph.nodes_finish] at hid
    obtain ⟨n, hn, rfl⟩ := List.mem_map.mp hid
    exact startsWith_eq_false (ne_placeholderId_of_mem_combined (Array.mem_toList_iff.mp hn))
  refine ⟨?_, hends, Graph.nodup_triples_finish g files, hresolved, fun edge hedge => ?_⟩
  · show (g.finish files).report.ids.Nodup
    rw [Graph.ids_report, Graph.ids, Graph.nodes_finish]
    exact combined_indexed.nodup_ids
  · exact ⟨hresolved _ (hends edge hedge).1, hresolved _ (hends edge hedge).2⟩

/-- **Every report is sound**, of whatever repository and with whatever settings, and whether or not
the analysis could have been stopped. -/
theorem report_sound {host : Host} {tree : FileTree} {settings : Settings} {report : Report}
    (h : (∃ here path, analyze host tree settings here path = .ok report) ∨
      ∃ root name? checks, analyzeAt host tree settings root name? checks = .ok report) :
    report.Sound := by
  obtain ⟨root, name?, checks, h⟩ : ∃ root name? checks,
      analyzeAt host tree settings root name? checks = .ok report := by
    rcases h with ⟨here, path, h⟩ | h
    · cases hroot : repositoryAt tree here path with
      | error error =>
          rw [analyze_eq_error_of_repositoryAt hroot] at h
          cases h
      | ok root =>
          rw [analyze, hroot] at h
          exact ⟨_, _, _, h⟩
    · exact h
  cases hg : buildGraph host tree settings.extraction
      (repositoryFiles tree root settings.discovery) checks with
  | error e =>
      rw [analyzeAt, hg] at h
      cases h
  | ok g =>
      rw [analyzeAt, hg] at h
      cases h
      rw [eq_combined_of_buildGraph hg]
      exact sound_report_finish tree settings.extraction _ _ _

/-- Two script files that import each other, one of them twice. -/
def mutualImports : FileTree :=
  .directory [("repo", .directory
    [("x.js", .file (Text.Utf8.encode "import a from './y';\nimport b from './y.js';\n")),
      ("y.js", .file (Text.Utf8.encode "require('./x'); require('react');\n"))])]

/-- The report on the two files is sound. -/
theorem sound_mutualImports :
    ∃ report, analyze {} mutualImports {} [] "/repo" = .ok report ∧ report.Sound := by
  have hroot : repositoryAt mutualImports [] "/repo" = .ok ["repo"] := by cbv
  have hreport : analyze {} mutualImports {} [] "/repo"
      = .ok (repositoryReport mutualImports {} ["repo"]) := analyze_eq_ok hroot rfl
  exact ⟨_, hreport, report_sound (Or.inl ⟨_, _, hreport⟩)⟩

end Cartograph
