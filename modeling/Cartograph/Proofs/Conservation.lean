import Cartograph.Proofs.Imports.Law

/-!
# No edge is lost

What a file contributes and is no import comes out at the end: the ends of such an edge come with
it, no resolver touches it, and of several edges with one triple the first stays as it was. So all
that settling drops are repeated edges and imports that no resolver could place.
-/

namespace Cartograph

/-- The edges that some files contribute, file by file in the order of the files. -/
def contributedEdges (tree : FileTree) (settings : ExtractionSettings) (files : List SourceFile) :
    List Edge :=
  files.flatMap fun file => (file.contribution tree settings).edges.toList

/-- The report on the repository at `root` has all edges that its files contribute, but for imports
that could not be placed. -/
structure Report.Conserves (report : Report) (tree : FileTree) (settings : Settings)
    (root : Place) : Prop where
  /-- The triples of edges that are no imports are those that files contribute. -/
  mem_triples_iff : ∀ triple : String × String × EdgeKind, triple.2.2 ≠ .imports →
    (triple ∈ report.edges.map Edge.triple ↔
      ∃ file ∈ repositoryFiles tree root settings.discovery,
        triple ∈ (file.contribution tree settings.extraction).edges.toList.map Edge.triple)
  /-- Of edges with one triple the first is kept as it is. -/
  mem_edges_iff : ∀ edge : Edge, edge.kind ≠ .imports →
    (edge ∈ report.edges ↔ Graph.IsFirst (contributedEdges tree settings.extraction
      (repositoryFiles tree root settings.discovery)) edge)
  /-- Of the edges that settling is given, only imports that still lead to a placeholder leave no
  trace. -/
  mem_triples_settled_iff : ∀ host g, buildGraph host tree settings.extraction
        (repositoryFiles tree root settings.discovery)
        (undisturbed (repositoryFiles tree root settings.discovery)) = .ok g →
      ∀ edge ∈ ((resolvers (repositoryFiles tree root settings.discovery)).foldl
          Graph.resolveImports g).edges,
        (edge.triple ∈ report.edges.map Edge.triple ↔ edge.unresolved? = none)

section

variable {tree : FileTree} {settings : ExtractionSettings} {files : List SourceFile}

/-! ## Edges keep their ends -/

/-- An edge that is no import has both of its ends among all nodes. -/
theorem holdsEnds_of_mem_contributedEdges {edge : Edge}
    (h : edge ∈ contributedEdges tree settings files) (hkind : edge.kind ≠ .imports) :
    (combined tree settings files).holdsEnds edge = true := by
  obtain ⟨file, hfile, hedge⟩ := List.mem_flatMap.mp h
  rcases (file.grown_contribution tree settings).mem_edges hedge with hclosed | ⟨target, -, rfl⟩
  · exact holdsEnds_combined hfile hclosed.2
  · exact absurd rfl hkind

/-! ## Resolvers leave them alone -/

/-- Only the edge itself becomes an edge that is no import. -/
theorem redirectAll_eq_iff {edge other : Edge} (hkind : edge.kind ≠ .imports) :
    redirectAll files other = edge ↔ other = edge := by
  by_cases hother : other.kind = .imports
  · -- an import stays an import, wherever it is sent
    have hne : ∀ e : Edge, e.kind = .imports → e ≠ edge := by
      rintro e he rfl
      exact hkind he
    exact iff_of_false (hne _ ((kind_redirectAll files other).trans hother)) (hne _ hother)
  · rw [redirectAll_of_ne_imports files hother]

/-- Only edges with its triple get the triple of an edge that is no import. -/
theorem triple_redirectAll_eq_iff {edge other : Edge} (hkind : edge.kind ≠ .imports) :
    (redirectAll files other).triple = edge.triple ↔ other.triple = edge.triple := by
  by_cases hother : other.kind = .imports
  · have hne : ∀ e : Edge, e.kind = .imports → e.triple ≠ edge.triple := by
      intro e he htriple
      exact hkind ((congrArg (fun t => t.2.2) htriple).symm.trans he)
    exact iff_of_false (hne _ ((kind_redirectAll files other).trans hother)) (hne _ hother)
  · rw [redirectAll_of_ne_imports files hother]

/-- **The first edge with its triple stays the first** when imports are redirected. -/
theorem isFirst_map_redirectAll {edges : List Edge} {edge : Edge} (hkind : edge.kind ≠ .imports) :
    Graph.IsFirst (edges.map (redirectAll files)) edge ↔ Graph.IsFirst edges edge := by
  constructor
  · rintro ⟨before, after, heq, hnew⟩
    obtain ⟨front, rest, rfl, rfl, hrest⟩ := List.map_eq_append_iff.mp heq
    obtain ⟨other, back, rfl, hother, -⟩ := List.map_eq_cons_iff.mp hrest
    rw [redirectAll_eq_iff hkind] at hother
    subst hother
    refine ⟨front, back, rfl, fun e he htriple => ?_⟩
    exact hnew _ (List.mem_map_of_mem he) ((triple_redirectAll_eq_iff hkind).mpr htriple)
  · rintro ⟨before, after, rfl, hnew⟩
    refine ⟨before.map (redirectAll files), after.map (redirectAll files), ?_, ?_⟩
    · rw [List.map_append, List.map_cons, redirectAll_of_ne_imports files hkind]
    · intro e he htriple
      obtain ⟨other, hother, rfl⟩ := List.mem_map.mp he
      exact hnew other hother ((triple_redirectAll_eq_iff hkind).mp htriple)

/-! ## What settling drops -/

/-- **An edge that is no import is kept** exactly when it is the first with its triple. -/
theorem mem_edges_finish_of_ne_imports {edge : Edge} (hkind : edge.kind ≠ .imports) :
    edge ∈ ((combined tree settings files).finish files).edges.toList ↔
      Graph.IsFirst (contributedEdges tree settings files) edge := by
  rw [Graph.mem_edges_finish, edges_combined, isFirst_map_redirectAll hkind]
  constructor
  · exact fun h => h.2
  · exact fun h => ⟨holdsEnds_of_mem_contributedEdges h.mem hkind, h⟩

/-- **What a resolver has placed is kept**, and so is all that is no import. -/
theorem holdsEnds_redirectAll (hpaths : PathsTellLanguages files) {edge : Edge}
    (h : edge ∈ contributedEdges tree settings files) :
    (combined tree settings files).holdsEnds (redirectAll files edge) = true ↔
      (redirectAll files edge).unresolved? = none := by
  refine ⟨unresolved?_of_holdsEnds, fun hresolved => ?_⟩
  by_cases hkind : edge.kind = .imports
  · obtain ⟨file, hfile, hedge⟩ := List.mem_flatMap.mp h
    obtain ⟨target, -, rfl⟩ := eq_importEdge_of_mem hedge hkind
    rcases redirectAll_importEdge_cases hpaths hfile target with
      ⟨r, hr, -, id, hid, hredirect⟩ | hself
    · rw [hredirect]
      exact holdsEnds_importEdge hfile hr hid target
    · rw [hself, unresolved?_importEdge] at hresolved
      cases hresolved
  · rw [redirectAll_of_ne_imports files hkind]
    exact holdsEnds_of_mem_contributedEdges h hkind

/-- A triple that is no import is there in the end exactly when some file contributes it. -/
theorem mem_triples_finish_of_ne_imports {triple : String × String × EdgeKind}
    (hkind : triple.2.2 ≠ .imports) :
    triple ∈ ((combined tree settings files).finish files).edges.toList.map Edge.triple ↔
      ∃ file ∈ files, triple ∈ (file.contribution tree settings).edges.toList.map Edge.triple := by
  constructor
  · intro h
    obtain ⟨edge, hedge, rfl⟩ := List.mem_map.mp h
    have hfirst := (mem_edges_finish_of_ne_imports hkind).mp hedge
    obtain ⟨file, hfile, hmem⟩ := List.mem_flatMap.mp hfirst.mem
    exact ⟨file, hfile, List.mem_map_of_mem hmem⟩
  · rintro ⟨file, hfile, h⟩
    obtain ⟨edge, hedge, rfl⟩ := List.mem_map.mp h
    obtain ⟨first, hfirst, htriple⟩ := Graph.exists_isFirst
      (List.mem_flatMap.mpr ⟨file, hfile, hedge⟩ : edge ∈ contributedEdges tree settings files)
    have hfirstKind : first.kind ≠ .imports := by
      rwa [show first.kind = edge.kind from congrArg (fun t => t.2.2) htriple]
    rw [← htriple]
    exact List.mem_map_of_mem ((mem_edges_finish_of_ne_imports hfirstKind).mpr hfirst)

/-- **What settling drops** but for repetitions are imports that still lead to a placeholder. -/
theorem mem_triples_finish_of_mem_resolved (hpaths : PathsTellLanguages files) {edge : Edge}
    (h : edge ∈ ((resolvers files).foldl Graph.resolveImports
      (combined tree settings files)).edges) :
    edge.triple ∈ ((combined tree settings files).finish files).edges.toList.map Edge.triple ↔
      edge.unresolved? = none := by
  rw [foldl_resolveImports] at h
  obtain ⟨old, hold, rfl⟩ := Array.mem_map.mp h
  have hcontributed : old ∈ contributedEdges tree settings files := by
    rw [contributedEdges, ← edges_combined]
    exact Array.mem_toList_iff.mpr hold
  rw [Graph.mem_triples_finish, ← holdsEnds_redirectAll hpaths hcontributed]
  constructor
  · rintro ⟨other, -, htriple, hends⟩
    exact (Graph.holdsEnds_congr _ htriple).symm.trans hends
  · exact fun hends => ⟨old, Array.mem_toList_iff.mpr hold, rfl, hends⟩

end

/-- **No edge is lost.** Every repository gets a report, and settling has dropped nothing from it
but imports that could not be placed and repetitions. -/
theorem edges_conserved {host : Host} {tree : FileTree} {here root : Place} {path : RawText}
    (h : repositoryAt tree here path = .ok root) {settings : Settings}
    (hpool : host.pool settings.extraction.workers = .ok ()) :
    ∃ report, analyze host tree settings here path = .ok report ∧
      report.Conserves tree settings root := by
  refine ⟨_, analyze_eq_ok h hpool, ?_⟩
  have hpaths := pathsTellLanguages tree root settings.discovery
  refine ⟨fun triple hkind => mem_triples_finish_of_ne_imports hkind,
    fun edge hkind => mem_edges_finish_of_ne_imports hkind, fun _ g hg edge hedge => ?_⟩
  obtain rfl := (eq_combined_of_buildGraph hg).trans (congrArg _ (reachedFiles_undisturbed _))
  exact mem_triples_finish_of_mem_resolved hpaths hedge

/-- Two Python files with a base of one name, one of which notes a write to a database twice. -/
def sharedBase : FileTree :=
  .directory [("repo", .directory
    [("a.py", .file (Text.Utf8.encode "class A(Base):\n    pass\n")),
      ("b.py", .file (Text.Utf8.encode "import os\nclass B(Base): pass\nx.save()\ny.save()\n"))])]

/-- No edge of the two files is lost. -/
theorem conserved_sharedBase : ∃ report, analyze {} sharedBase {} [] "/repo" = .ok report ∧
    report.Conserves sharedBase {} ["repo"] :=
  edges_conserved (by cbv) rfl

end Cartograph
