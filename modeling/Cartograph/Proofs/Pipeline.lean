import Cartograph.Proofs.Discovery
import Cartograph.Proofs.Fragment.Closed
import Cartograph.Proofs.Graph.Merging
import Cartograph.Proofs.Graph.Settling

/-!
# An analysis step by step

What the files contribute is put together (`combined`), every import is redirected as far as a
resolver can tell (`redirectAll`), and the edges are settled. Main statements: which nodes and edges
the graph has after each step, and that a repository gets a report wherever there are workers
(`analyze_eq_ok`).
-/

namespace Cartograph

/-! ## Putting fragments together -/

/-- What some files contribute together. -/
def combined (tree : FileTree) (settings : ExtractionSettings) (files : List SourceFile) : Graph :=
  Graph.mergeAll (files.map fun file => file.contribution tree settings)

/-- The files whose checks let the analysis go on. -/
def reachedFiles (files : List SourceFile) (checks : List Check) : List SourceFile :=
  ((files.zip checks).filter fun entry => entry.2 = .passed).map Prod.fst

/-- Every file is reached when nobody stops the analysis. -/
theorem reachedFiles_undisturbed (files : List SourceFile) :
    reachedFiles files (undisturbed files) = files := by
  induction files with
  | nil => rfl
  | cons file rest ih =>
      rw [undisturbed, List.map_cons, reachedFiles, List.zip_cons_cons,
        List.filter_cons_of_pos (by rfl), List.map_cons]
      exact congrArg (file :: ·) ih

section Combined

variable {host : Host} {tree : FileTree} {settings : ExtractionSettings}
  {files : List SourceFile}

/-- Without workers there is no graph, whatever the checks would find. -/
theorem buildGraph_of_pool_eq_error {error : AnalysisError}
    (h : host.pool settings.workers = .error error) (checks : List Check) :
    buildGraph host tree settings files checks = .error error := by
  rw [buildGraph, h]
  rfl

theorem buildGraph_of_stopped (hpool : host.pool settings.workers = .ok ())
    {checks : List Check} (h : checks.contains .stopped = true) :
    buildGraph host tree settings files checks = .error .cancelled := by
  rw [buildGraph, hpool, h]
  rfl

/-- An analysis that nobody stopped puts the files together that were reached. -/
theorem buildGraph_eq_ok (hpool : host.pool settings.workers = .ok ()) {checks : List Check}
    (h : checks.contains .stopped = false) :
    buildGraph host tree settings files checks
      = .ok (combined tree settings (reachedFiles files checks)) := by
  rw [buildGraph, hpool, h, combined, reachedFiles, List.map_map]
  rfl

theorem eq_combined_of_buildGraph {checks : List Check} {g : Graph}
    (h : buildGraph host tree settings files checks = .ok g) :
    g = combined tree settings (reachedFiles files checks) := by
  cases hpool : host.pool settings.workers with
  | error error =>
      rw [buildGraph_of_pool_eq_error hpool] at h
      cases h
  | ok _ =>
      by_cases hstop : checks.contains .stopped = true
      · rw [buildGraph_of_stopped hpool hstop] at h
        cases h
      · rw [buildGraph_eq_ok hpool (Bool.eq_false_iff.mpr hstop)] at h
        exact (Except.ok.inj h).symm

theorem buildGraph_undisturbed (hpool : host.pool settings.workers = .ok ()) :
    buildGraph host tree settings files (undisturbed files)
      = .ok (combined tree settings files) := by
  rw [buildGraph_eq_ok hpool, reachedFiles_undisturbed]
  simp [undisturbed]

theorem combined_indexed : (combined tree settings files).Indexed :=
  Graph.Indexed.mergeAll _

/-- The edges are those of the fragments, in the order of the files. -/
theorem edges_combined : (combined tree settings files).edges.toList
    = files.flatMap fun file => (file.contribution tree settings).edges.toList := by
  rw [combined, Graph.edges_mergeAll, List.flatMap_map]

/-- What is known in the fragment of one of the files is known. -/
theorem contains_combined {id : String} : (combined tree settings files).contains id = true ↔
    ∃ file ∈ files, (file.contribution tree settings).contains id = true := by
  rw [combined, Graph.contains_mergeAll]
  · simp
  · intro g hg
    obtain ⟨file, -, rfl⟩ := List.mem_map.mp hg
    exact (file.grown_contribution tree settings).indexed

theorem mem_nodes_of_mem_combined {n : Node} (h : n ∈ (combined tree settings files).nodes) :
    ∃ file ∈ files, n ∈ (file.contribution tree settings).nodes := by
  obtain ⟨g, hg, hn⟩ := Graph.mem_nodes_of_mem_mergeAll h
  obtain ⟨file, hfile, rfl⟩ := List.mem_map.mp hg
  exact ⟨file, hfile, hn⟩

/-- Every file has a node. -/
theorem contains_combined_file {file : SourceFile} (h : file ∈ files) :
    (combined tree settings files).contains file.id = true :=
  contains_combined.mpr ⟨file, h, (file.grown_contribution tree settings).contains_file⟩

/-- No placeholder is a node. -/
theorem ne_placeholderId_of_mem_combined {n : Node} (h : n ∈ (combined tree settings files).nodes)
    (target : String) : n.id ≠ placeholderId target := by
  obtain ⟨file, -, hn⟩ := mem_nodes_of_mem_combined h
  exact (file.grown_contribution tree settings).id_ne_placeholderId hn target

/-- An edge of a fragment that has both ends in it has both ends in the whole. -/
theorem holdsEnds_combined {file : SourceFile} (h : file ∈ files) {edge : Edge}
    (hends : (file.contribution tree settings).holdsEnds edge = true) :
    (combined tree settings files).holdsEnds edge = true := by
  rw [Graph.holdsEnds, Bool.and_eq_true] at hends ⊢
  exact ⟨contains_combined.mpr ⟨file, h, hends.1⟩, contains_combined.mpr ⟨file, h, hends.2⟩⟩

end Combined

/-! ## Redirecting imports -/

namespace Resolver

/-- A resolver may change where an edge leads but not its kind. -/
@[simp] theorem kind_redirect (r : Resolver) (edge : Edge) :
    (r.redirect edge).kind = edge.kind := by
  unfold redirect
  split <;> rfl

/-- Only imports that lead to a placeholder are redirected. -/
theorem redirect_of_unresolved?_eq_none (r : Resolver) {edge : Edge} (h : edge.unresolved? = none) :
    r.redirect edge = edge := by
  unfold redirect target?
  rw [h]

end Resolver

/-- The edge as the resolvers for some files leave it, one after the other. -/
def redirectAll (files : List SourceFile) (edge : Edge) : Edge :=
  (resolvers files).foldl (fun edge r => r.redirect edge) edge

@[simp] theorem kind_redirectAll (files : List SourceFile) (edge : Edge) :
    (redirectAll files edge).kind = edge.kind := by
  simp [redirectAll, resolvers]

/-- An edge that is no import stays as it is. -/
theorem redirectAll_of_ne_imports (files : List SourceFile) {edge : Edge}
    (h : edge.kind ≠ .imports) : redirectAll files edge = edge := by
  have hnone : edge.unresolved? = none := if_neg h
  simp [redirectAll, resolvers, Resolver.redirect_of_unresolved?_eq_none _ hnone]

/-- The resolvers leave the nodes alone and redirect each edge on its own. -/
theorem foldl_resolveImports (g : Graph) (files : List SourceFile) :
    (resolvers files).foldl Graph.resolveImports g
      = { g with edges := g.edges.map (redirectAll files) } := by
  simp only [resolvers, List.foldl_cons, List.foldl_nil, Graph.resolveImports, Array.map_map]
  rfl

/-! ## Settling -/

namespace Graph

theorem nodes_finish (g : Graph) (files : List SourceFile) : (g.finish files).nodes = g.nodes := by
  rw [finish, foldl_resolveImports, nodes_settle]

/-- The edges in the end are what one pass keeps of the redirected edges that have both ends. -/
theorem edges_finish (g : Graph) (files : List SourceFile) : (g.finish files).edges.toList
    = kept g.contains {} ((g.edges.toList.map (redirectAll files)).filter g.holdsEnds) := by
  rw [finish, foldl_resolveImports, toList_edges_settle, kept_filter_holdsEnds, Array.toList_map]
  rfl

/-- **The edges in the end**: those among the redirected ones that have both ends and repeat no
earlier one. -/
theorem mem_edges_finish {g : Graph} {files : List SourceFile} {edge : Edge} :
    edge ∈ (g.finish files).edges.toList ↔
      g.holdsEnds edge = true ∧ IsFirst (g.edges.toList.map (redirectAll files)) edge := by
  rw [finish, foldl_resolveImports, mem_edges_settle, Array.toList_map]
  rfl

/-- A triple is there in the end exactly when some edge has it after it has been redirected and then
has both of its ends. -/
theorem mem_triples_finish {g : Graph} {files : List SourceFile}
    {triple : String × String × EdgeKind} :
    triple ∈ (g.finish files).edges.toList.map Edge.triple ↔
      ∃ edge ∈ g.edges.toList, (redirectAll files edge).triple = triple ∧
        g.holdsEnds (redirectAll files edge) = true := by
  rw [finish, foldl_resolveImports, mem_triples_settle]
  simp only [Array.toList_map, List.mem_map]
  constructor
  · rintro ⟨_, ⟨edge, hedge, rfl⟩, htriple, hends⟩
    exact ⟨edge, hedge, htriple, hends⟩
  · rintro ⟨edge, hedge, htriple, hends⟩
    exact ⟨_, ⟨edge, hedge, rfl⟩, htriple, hends⟩

theorem nodup_triples_finish (g : Graph) (files : List SourceFile) :
    ((g.finish files).edges.toList.map Edge.triple).Nodup := by
  rw [finish]
  exact nodup_triples_settle _

/-! ## Reports -/

/-- The nodes of a report are those of the graph. -/
theorem nodes_report (g : Graph) : g.report.nodes.map RatedNode.node = g.nodes.toList := by
  simp [report, Function.comp_def]

end Graph

/-- The report on the repository at `root` when nobody stops the analysis. -/
def repositoryReport (tree : FileTree) (settings : Settings) (root : Place) : Report :=
  let files := repositoryFiles tree root settings.discovery
  { ((combined tree settings.extraction files).finish files).report with
    repository := root.getLast?.map RawText.shown }

/-- The nodes of the report on a repository are those that its files contribute together. -/
theorem nodes_repositoryReport (tree : FileTree) (settings : Settings) (root : Place) :
    (repositoryReport tree settings root).nodes.map RatedNode.node
      = (combined tree settings.extraction
          (repositoryFiles tree root settings.discovery)).nodes.toList := by
  rw [← Graph.nodes_finish _ (repositoryFiles tree root settings.discovery)]
  exact Graph.nodes_report _

section

variable {host : Host} {tree : FileTree} {here root : Place} {path : RawText}

/-- A repository has the last name of its real path. -/
theorem repositoryName_eq (h : repositoryAt tree here path = .ok root) :
    repositoryName tree here path = root.getLast?.map RawText.shown := by
  rw [repositoryName, (repositoryAt_eq_ok_iff.mp h).2.1]

/-- **Every repository gets a report** wherever there are workers. -/
theorem analyze_eq_ok (h : repositoryAt tree here path = .ok root) {settings : Settings}
    (hpool : host.pool settings.extraction.workers = .ok ()) :
    analyze host tree settings here path = .ok (repositoryReport tree settings root) := by
  simp only [analyze, h, analyzeAt, repositoryName_eq h]
  change (do
    let g ← buildGraph host tree settings.extraction _ (undisturbed _)
    _) = _
  rw [buildGraph_undisturbed hpool]
  rfl

/-- Without workers there is no report. -/
theorem analyze_of_pool_eq_error (h : repositoryAt tree here path = .ok root)
    {settings : Settings} {error : AnalysisError}
    (hpool : host.pool settings.extraction.workers = .error error) :
    analyze host tree settings here path = .error error := by
  rw [analyze, h]
  change (do
    let g ← buildGraph host tree settings.extraction _ _
    _) = _
  rw [buildGraph_of_pool_eq_error hpool]
  rfl

/-- Without a repository there is no report. -/
theorem analyze_eq_error_of_repositoryAt {error : AnalysisError}
    (h : repositoryAt tree here path = .error error) (settings : Settings) :
    analyze host tree settings here path = .error error := by
  rw [analyze, h]
  rfl

end

end Cartograph
