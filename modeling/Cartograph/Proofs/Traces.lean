import Cartograph.Proofs.FileOrder
import Cartograph.Proofs.FileTree.Outline
import Cartograph.Proofs.Graph.Degrees
import Cartograph.Proofs.Imports.Law

/-!
# What files leave behind in a report

A file of no particular language contributes its node and imports, and as no resolver is for such
files, none of these imports gets an end. Main statements: whatever such a file holds, no edge of a
report touches it (`not_touched_of_generic`), and a report depends on nothing but the entries of the
tree, the ignore file and what the files of dedicated languages contribute (`analyze_congr`).
-/

namespace Cartograph

/-! ## Files of any language -/

/-- Imports that are noted come behind the edges that are there. -/
theorem Graph.foldl_addImport (file : SourceFile) (targets : List String) (g : Graph) :
    targets.foldl (Graph.addImport file) g
      = { g with edges := g.edges ++ (targets.map (importEdge file)).toArray } := by
  induction targets generalizing g with
  | nil => simp
  | cons target rest ih =>
      rw [List.foldl_cons, ih, Graph.addImport, Graph.addEdgeDeferred, List.map_cons]
      simp [importEdge]

/-- **A file of no particular language** contributes its node and imports, whatever it holds. -/
theorem SourceFile.contribution_of_generic {file : SourceFile} (h : file.language = .generic)
    (tree : FileTree) (settings : ExtractionSettings) : ∃ targets : List String,
      file.contribution tree settings
        = { file.bareFragment with edges := (targets.map (importEdge file)).toArray } := by
  rw [SourceFile.contribution]
  cases hfragment : file.fragment? tree settings with
  | error e =>
      refine ⟨[], ?_⟩
      rw [List.map_nil, ← file.edges_bareFragment]
  | ok g =>
      rw [SourceFile.fragment?, h] at hfragment
      cases hread : file.read tree (Language.generic.readLimit? settings.readLimit) with
      | error e =>
          rw [hread] at hfragment
          cases hfragment
      | ok text =>
          rw [hread] at hfragment
          cases hfragment
          refine ⟨Generic.importTargets text, ?_⟩
          rw [Generic.fragment, Graph.foldl_addImport, file.edges_bareFragment, Array.empty_append]

section

variable {tree : FileTree} {settings : ExtractionSettings} {files : List SourceFile}
  {file : SourceFile}

theorem SourceFile.nodes_of_generic (h : file.language = .generic) :
    (file.contribution tree settings).nodes = #[file.node] := by
  obtain ⟨targets, heq⟩ := file.contribution_of_generic h tree settings
  rw [heq]
  exact file.nodes_bareFragment

theorem SourceFile.exists_of_mem_edges_of_generic (h : file.language = .generic) {edge : Edge}
    (hedge : edge ∈ (file.contribution tree settings).edges.toList) :
    ∃ target, edge = importEdge file target := by
  obtain ⟨targets, heq⟩ := file.contribution_of_generic h tree settings
  rw [heq] at hedge
  obtain ⟨target, -, rfl⟩ := List.mem_map.mp hedge
  exact ⟨target, rfl⟩

/-! ## Edges that last -/

/-- The edges of a file that have both ends among all nodes once they have been redirected. -/
def lastingEdges (tree : FileTree) (settings : ExtractionSettings) (files : List SourceFile)
    (file : SourceFile) : List Edge :=
  ((file.contribution tree settings).edges.toList.map (redirectAll files)).filter
    (combined tree settings files).holdsEnds

/-- The edges in the end are what one pass keeps of the edges that last. -/
theorem edges_finish_combined : ((combined tree settings files).finish files).edges.toList
    = Graph.kept (combined tree settings files).contains {}
        (files.flatMap (lastingEdges tree settings files)) := by
  rw [Graph.edges_finish, edges_combined, List.map_flatMap, List.filter_flatMap]
  rfl

/-- **How an edge comes to last**: it is no import and has both ends in the fragment of a file, or
it is an import that the resolver of the file's family has placed. -/
theorem lasting_cases (hpaths : PathsTellLanguages files) (hfile : file ∈ files) {edge : Edge}
    (h : edge ∈ lastingEdges tree settings files file) :
    ((file.contribution tree settings).holdsEnds edge = true ∧ edge.kind ≠ .imports ∧
        edge ∈ (file.contribution tree settings).edges.toList) ∨
      (edge.source = file.id ∧ ∃ r ∈ resolvers files, file.language = r.language ∧
        ∃ module, r.resolve file.id module = some edge.target) := by
  obtain ⟨hmem, hends⟩ := List.mem_filter.mp h
  obtain ⟨first, hfirst, rfl⟩ := List.mem_map.mp hmem
  rcases (file.grown_contribution tree settings).mem_edges hfirst with
    ⟨hkind, hclosed⟩ | ⟨target, -, rfl⟩
  · rw [redirectAll_of_ne_imports files hkind]
    exact Or.inl ⟨hclosed, hkind, hfirst⟩
  · refine Or.inr ?_
    rcases redirectAll_importEdge_cases hpaths hfile target with
      ⟨r, hr, hlanguage, id, hid, hredirect⟩ | hself
    · rw [hredirect]
      exact ⟨rfl, r, hr, hlanguage, target, hid⟩
    · -- an import that no resolver places keeps its placeholder and so lacks an end
      have hunresolved := unresolved?_of_holdsEnds hends
      rw [hself, unresolved?_importEdge] at hunresolved
      cases hunresolved

/-- **No edge of a file of no particular language lasts.** -/
theorem lastingEdges_of_generic (hpaths : PathsTellLanguages files) (hfile : file ∈ files)
    (h : file.language = .generic) : lastingEdges tree settings files file = [] := by
  rw [List.eq_nil_iff_forall_not_mem]
  intro edge hedge
  rcases lasting_cases hpaths hfile hedge with ⟨-, hkind, hmem⟩ | ⟨-, r, hr, hlanguage, -⟩
  · obtain ⟨target, rfl⟩ := SourceFile.exists_of_mem_edges_of_generic h hmem
    exact hkind rfl
  · exact Resolver.language_ne_generic hr (hlanguage.symm.trans h)

/-! ## Edges that touch files -/

/-- Every edge in the end is an edge of some file that lasts. -/
theorem exists_lasting_of_mem_finish {edge : Edge}
    (h : edge ∈ ((combined tree settings files).finish files).edges.toList) :
    ∃ file ∈ files, edge ∈ lastingEdges tree settings files file := by
  rw [edges_finish_combined] at h
  exact List.mem_flatMap.mp (Graph.mem_kept.mp h).2.2.mem

/-- A fragment knows no file but its own. -/
theorem path_eq_of_contains {path : String}
    (h : (file.contribution tree settings).contains (fileId path) = true) : file.path = path := by
  have grown := file.grown_contribution tree settings
  obtain ⟨n, hn, hid⟩ := List.mem_map.mp (grown.indexed.contains_iff.mp h)
  have hnode := grown.eq_node_of_fileId (Array.mem_toList_iff.mp hn) hid
  rw [hnode] at hid
  exact fileId_injective hid

/-- **What leaves the node of a file** is an edge of a file with this path. -/
theorem path_eq_of_source (hpaths : PathsTellLanguages files) (hfile : file ∈ files) {edge : Edge}
    (h : edge ∈ lastingEdges tree settings files file) {path : String}
    (hsource : edge.source = fileId path) : file.path = path := by
  rcases lasting_cases hpaths hfile h with ⟨hends, -, -⟩ | ⟨hid, -⟩
  · rw [Graph.holdsEnds, hsource, Bool.and_eq_true] at hends
    exact path_eq_of_contains hends.1
  · exact fileId_injective (hid.symm.trans hsource)

/-- **What leads to the node of a file** is an edge of a file with this path, or the file is of a
dedicated language. -/
theorem path_eq_of_target (hpaths : PathsTellLanguages files) (hfile : file ∈ files) {edge : Edge}
    (h : edge ∈ lastingEdges tree settings files file) {path : String}
    (htarget : edge.target = fileId path) :
    file.path = path ∨ ∃ other ∈ files, other.path = path ∧ other.language ≠ .generic := by
  rcases lasting_cases hpaths hfile h with ⟨hends, -, -⟩ | ⟨-, r, hr, -, module, hresolve⟩
  · rw [Graph.holdsEnds, htarget, Bool.and_eq_true] at hends
    exact Or.inl (path_eq_of_contains hends.2)
  · obtain ⟨other, hother, hlanguage, hid⟩ := Resolver.exists_of_resolve hr hresolve
    refine Or.inr ⟨other, hother, fileId_injective (hid.trans htarget), ?_⟩
    rw [hlanguage]
    exact Resolver.language_ne_generic hr

/-- **No edge touches a file of no particular language.** -/
theorem not_touched_of_generic (hpaths : PathsTellLanguages files) (hfile : file ∈ files)
    (h : file.language = .generic) {edge : Edge}
    (hedge : edge ∈ ((combined tree settings files).finish files).edges.toList) :
    edge.source ≠ file.id ∧ edge.target ≠ file.id := by
  obtain ⟨other, hother, hlasts⟩ := exists_lasting_of_mem_finish hedge
  have hne : other.path ≠ file.path := by
    intro hpath
    have hgeneric := (hpaths other hother file hfile hpath).trans h
    rw [lastingEdges_of_generic hpaths hother hgeneric] at hlasts
    cases hlasts
  constructor
  · exact fun hsource => hne (path_eq_of_source hpaths hother hlasts hsource)
  · intro htarget
    rcases path_eq_of_target hpaths hother hlasts htarget with hpath | ⟨b, hb, hpath, hlanguage⟩
    · exact hne hpath
    · exact hlanguage ((hpaths b hb file hfile hpath).trans h)

end

/-! ## What a report depends on -/

/-- **What a file contributes** depends on nothing but what it holds and how much of it is read. -/
theorem SourceFile.contribution_of_read_eq {file : SourceFile} {tree other : FileTree}
    {settings changed : ExtractionSettings}
    (hread : other.readBytes [] file.location = tree.readBytes [] file.location)
    (hlimit : file.language.readLimit? changed.readLimit
      = file.language.readLimit? settings.readLimit) :
    file.contribution other changed = file.contribution tree settings := by
  have hfragment : file.fragment? other changed = file.fragment? tree settings := by
    rw [SourceFile.fragment?, SourceFile.fragment?, SourceFile.read, SourceFile.read, hread, hlimit]
  rw [SourceFile.contribution, SourceFile.contribution, hfragment]

/-- **A file of a dedicated language is read to its end**, so what it contributes depends on nothing
but what it holds. -/
theorem SourceFile.contribution_congr {file : SourceFile} (h : file.language ≠ .generic)
    {tree other : FileTree}
    (hread : other.readBytes [] file.location = tree.readBytes [] file.location)
    (settings changed : ExtractionSettings) :
    file.contribution other changed = file.contribution tree settings := by
  refine SourceFile.contribution_of_read_eq hread ?_
  cases hlanguage : file.language with
  | python => rfl
  | script => rfl
  | generic => exact absurd hlanguage h

/-- A report shows nodes and edges, and nothing else of a graph. -/
theorem Graph.report_congr {g k : Graph} (hnodes : g.nodes = k.nodes) (hedges : g.edges = k.edges) :
    g.report = k.report := by
  simp only [report, degrees, hnodes, hedges]

/-- The files that have a language of their own contribute the same in both trees. -/
def SameContributions (files : List SourceFile) (tree other : FileTree)
    (settings changed : ExtractionSettings) : Prop :=
  ∀ file ∈ files, file.language ≠ .generic →
    file.contribution other changed = file.contribution tree settings

section

variable {tree other : FileTree} {settings changed : ExtractionSettings} {files : List SourceFile}

theorem nodes_combined_congr (h : SameContributions files tree other settings changed) :
    (combined other changed files).nodes = (combined tree settings files).nodes := by
  rw [← Array.toList_inj, nodes_combined, nodes_combined]
  refine congrArg firsts (List.flatMap_congr fun file hfile => ?_)
  by_cases hgeneric : file.language = .generic
  · rw [SourceFile.nodes_of_generic hgeneric, SourceFile.nodes_of_generic hgeneric]
  · rw [h file hfile hgeneric]

theorem contains_combined_congr (h : SameContributions files tree other settings changed) :
    (combined other changed files).contains = (combined tree settings files).contains := by
  funext id
  refine combined_indexed.contains_congr combined_indexed ?_ id
  rw [Graph.ids, Graph.ids, nodes_combined_congr h]

theorem lastingEdges_congr (h : SameContributions files tree other settings changed)
    (hpaths : PathsTellLanguages files) {file : SourceFile} (hfile : file ∈ files) :
    lastingEdges other changed files file = lastingEdges tree settings files file := by
  by_cases hgeneric : file.language = .generic
  · rw [lastingEdges_of_generic hpaths hfile hgeneric,
      lastingEdges_of_generic hpaths hfile hgeneric]
  · have hends : (combined other changed files).holdsEnds
        = (combined tree settings files).holdsEnds := by
      funext edge
      rw [Graph.holdsEnds, Graph.holdsEnds, contains_combined_congr h]
    rw [lastingEdges, lastingEdges, h file hfile hgeneric, hends]

theorem edges_finish_congr (h : SameContributions files tree other settings changed)
    (hpaths : PathsTellLanguages files) : ((combined other changed files).finish files).edges
      = ((combined tree settings files).finish files).edges := by
  rw [← Array.toList_inj, edges_finish_combined, edges_finish_combined, contains_combined_congr h]
  exact congrArg _ (List.flatMap_congr fun file hfile => lastingEdges_congr h hpaths hfile)

/-- The report on some files is the same in both trees. -/
theorem report_finish_congr (h : SameContributions files tree other settings changed)
    (hpaths : PathsTellLanguages files) : ((combined other changed files).finish files).report
      = ((combined tree settings files).finish files).report := by
  refine Graph.report_congr ?_ (edges_finish_congr h hpaths)
  rw [Graph.nodes_finish, Graph.nodes_finish, nodes_combined_congr h]

end

/-- **What an analysis depends on**: the entries of the tree, the ignore file and what the files of
dedicated languages contribute. -/
theorem analyze_congr {tree other : FileTree} {here root : Place} {path : RawText}
    {settings changed : Settings} (hroot : repositoryAt tree here path = .ok root)
    (hentries : tree.SameEntries other)
    (hignore : other.readBytes root ignoreFile = tree.readBytes root ignoreFile)
    (hdiscovery : changed.discovery = settings.discovery)
    (hworkers : changed.extraction.workers = settings.extraction.workers)
    (hsame : SameContributions (repositoryFiles tree root settings.discovery) tree other
      settings.extraction changed.extraction) (host : Host) :
    analyze host other changed here path = analyze host tree settings here path := by
  have hother : repositoryAt other here path = .ok root :=
    (hentries.repositoryAt_eq here path).trans hroot
  have hfiles : repositoryFiles other root changed.discovery
      = repositoryFiles tree root settings.discovery := by
    rw [hdiscovery]
    exact repositoryFiles_congr hentries hignore settings.discovery
  have hpaths := pathsTellLanguages tree root settings.discovery
  cases hpool : host.pool settings.extraction.workers with
  | error error =>
      rw [analyze_of_pool_eq_error hroot hpool, analyze_of_pool_eq_error hother (hworkers ▸ hpool)]
  | ok _ =>
      rw [analyze_eq_ok hother (hworkers ▸ hpool), analyze_eq_ok hroot hpool, repositoryReport,
        repositoryReport, hfiles, report_finish_congr hsame hpaths]

end Cartograph
