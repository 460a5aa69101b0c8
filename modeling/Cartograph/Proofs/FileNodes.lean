import Cartograph.Proofs.Exactness
import Cartograph.Proofs.FileOrder
import Mathlib

/-!
# One node for every file

Whatever a file holds and whether or not it can be looked into, its fragment has one node that
begins like a file, and that is the node of the file itself. So the nodes of a report that are files
are those of the files that were found, in their order (`file_nodes_eq`). Files that show the same
path share one node; where names are texts no two files do, but names that are none may be shown
alike (`file_nodes_shared`).
-/

namespace Cartograph

/-! ## Nodes that are files -/

/-- The identifier is that of a file. -/
def isFileId (id : String) : Bool :=
  Text.startsWith id "file:"

/-- Only what has the sort of files begins like a file. -/
theorem sortOf_of_isFileId {id : String} (h : isFileId id = true) : sortOf id = "file".toList := by
  obtain ⟨rest, hrest⟩ := Option.isSome_iff_exists.mp h
  rw [sortOf, Text.stripLead?_eq_some_iff.mp hrest]
  simp

@[simp] theorem isFileId_fileId (path : String) : isFileId (fileId path) = true := by
  rw [isFileId, Text.startsWith, Option.isSome_iff_exists]
  exact ⟨path.toList, Text.stripLead?_eq_some_iff.mpr (by simp [fileId])⟩

/-- What a file brings in is no file. -/
theorem Brings.isFileId_eq_false {file : SourceFile} {node : Node} {edge : Edge}
    (h : Brings file node edge) : isFileId node.id = false := by
  rw [Bool.eq_false_iff]
  exact fun hfile => h.sort.1 (sortOf_of_isFileId hfile)

/-- The nodes of a graph that are files, in their order. -/
def Graph.fileNodes (g : Graph) : List Node :=
  g.nodes.toList.filter fun n => isFileId n.id

/-- Adding a node that is no file leaves the files as they were. -/
theorem Graph.fileNodes_addNode {g : Graph} {node : Node} (h : isFileId node.id = false) :
    (g.addNode node).fileNodes = g.fileNodes := by
  rw [Graph.fileNodes, Graph.nodes_addNode]
  split
  · rfl
  · rw [Array.toList_push, List.filter_append, List.filter_cons_of_neg (by simp [h]),
      List.filter_nil, List.append_nil, Graph.fileNodes]

/-- **A fragment has one node that is a file**: the node of its own file. -/
theorem Grown.fileNodes_eq {file : SourceFile} {targets : List String} {g : Graph}
    (h : Grown file targets g) : g.fileNodes = [file.node] := by
  induction h with
  | bare =>
      have hfile : isFileId file.node.id = true := isFileId_fileId file.path
      simp [Graph.fileNodes, hfile]
  | bring _ brings _ ih => exact (Graph.fileNodes_addNode brings.isFileId_eq_false).trans ih
  | link _ _ _ ih => exact ih
  | «import» _ _ ih => exact ih

/-! ## Files that are put together -/

/-- The identifiers of files with different paths are different. -/
theorem nodup_ids_of_nodup_paths {files : List SourceFile}
    (h : (files.map SourceFile.path).Nodup) : (files.map SourceFile.id).Nodup := by
  rw [List.Nodup, List.pairwise_map] at h ⊢
  exact h.imp fun hne hid => hne (fileId_injective hid)

/-- **The nodes that are files** are those of the files; of files with one path only the first has
its node. -/
theorem fileNodes_combined (tree : FileTree) (settings : ExtractionSettings)
    (files : List SourceFile) :
    (combined tree settings files).fileNodes = firsts (files.map SourceFile.node) := by
  have hfragment : ∀ file : SourceFile,
      ((file.contribution tree settings).nodes.toList.filter fun n => isFileId n.id)
        = [file.node] :=
    fun file => (file.grown_contribution tree settings).fileNodes_eq
  rw [Graph.fileNodes, nodes_combined, filter_firsts, List.filter_flatMap]
  simp only [hfragment]
  rw [← List.map_eq_flatMap]

/-- The files of a repository in which all names are proper and are texts have different paths. -/
theorem nodup_paths_repositoryFiles {tree : FileTree} {here root : Place} {path : RawText}
    (hroot : repositoryAt tree here path = .ok root) (h : tree.WellNamed) (htext : tree.TextNamed)
    (settings : DiscoverySettings) :
    ((repositoryFiles tree root settings).map SourceFile.path).Nodup := by
  obtain ⟨entries, hentries⟩ := exists_directory_of_repositoryAt hroot
  exact nodup_paths_discover hentries (h.of_get? hentries).1 (htext.of_get? hentries).1

/-! ## Files in a report -/

/-- The nodes of a report that are files, in their order. -/
def Report.fileNodes (report : Report) : List Node :=
  (report.nodes.map RatedNode.node).filter fun n => Text.startsWith n.id "file:"

/-- The report has the nodes of these files and of no others. -/
structure Report.HasFileNodes (report : Report) (files : List SourceFile) : Prop where
  /-- The nodes stand in the order of the files, each at the first file that has it. -/
  fileNodes_eq : report.fileNodes = firsts (files.map SourceFile.node)
  /-- Every file has its node, all fields of it, and nothing else is a file. -/
  mem_iff : ∀ n, n ∈ report.fileNodes ↔ ∃ file ∈ files, file.node = n
  /-- No node stands twice. -/
  nodup_ids : (report.fileNodes.map Node.id).Nodup
  /-- Where no two files have one path there is one node for every file. -/
  of_nodup : (files.map SourceFile.path).Nodup → report.fileNodes = files.map SourceFile.node

theorem hasFileNodes_repositoryReport (tree : FileTree) (settings : Settings) (root : Place) :
    (repositoryReport tree settings root).HasFileNodes
      (repositoryFiles tree root settings.discovery) := by
  set files := repositoryFiles tree root settings.discovery with hfiles
  have hnodes : (repositoryReport tree settings root).fileNodes
      = firsts (files.map SourceFile.node) := by
    rw [Report.fileNodes, nodes_repositoryReport]
    exact fileNodes_combined tree settings.extraction files
  refine ⟨hnodes, fun n => ?_, ?_, fun hpaths => ?_⟩
  · rw [hnodes]
    constructor
    · exact fun hn => List.mem_map.mp (mem_of_mem_firsts hn)
    · rintro ⟨file, hfile, rfl⟩
      have hmem : file.node ∈ files.map SourceFile.node := List.mem_map_of_mem hfile
      obtain ⟨first, hfirst, hid⟩ := exists_mem_firsts hmem
      obtain ⟨other, hother, rfl⟩ := List.mem_map.mp (mem_of_mem_firsts hfirst)
      rwa [← node_eq_of_path_eq hother hfile (fileId_injective hid)]
  · rw [hnodes]
    exact nodup_firsts _
  · have hids : ((files.map SourceFile.node).map Node.id).Nodup := by
      rw [List.map_map]
      exact nodup_ids_of_nodup_paths hpaths
    rw [hnodes, firsts_of_nodup hids]

/-- **Every file has its node.** The nodes of a report that are files are those of the files that
were found, in their order, and where all names are texts there is one for every file. -/
theorem file_nodes_eq {host : Host} {tree : FileTree} {here root : Place} {path : RawText}
    (hroot : repositoryAt tree here path = .ok root) {settings : Settings}
    (hpool : host.pool settings.extraction.workers = .ok ()) :
    ∃ report, analyze host tree settings here path = .ok report ∧
      report.HasFileNodes (repositoryFiles tree root settings.discovery) ∧
      (tree.WellNamed → tree.TextNamed →
        report.fileNodes = (repositoryFiles tree root settings.discovery).map SourceFile.node ∧
        ((repositoryFiles tree root settings.discovery).map SourceFile.id).Nodup) := by
  have hnodes := hasFileNodes_repositoryReport tree settings root
  refine ⟨_, analyze_eq_ok hroot hpool, hnodes, fun h htext => ?_⟩
  have hpaths := nodup_paths_repositoryFiles hroot h htext settings.discovery
  exact ⟨hnodes.of_nodup hpaths, nodup_ids_of_nodup_paths hpaths⟩

/-- A Python file, one that is not well-formed and a script file, in a directory and beside it. -/
def wellFormedOrNot : FileTree :=
  .directory [("repo", .directory
    [("b.py", .file (Text.Utf8.encode "class (:\n")), ("a.py", .file (Text.Utf8.encode "x = 1\n")),
      ("lib", .directory [("b.js", .file (Text.Utf8.encode "app.get('/', f);\n"))])])]

/-- Each of the three files has its node. -/
theorem file_nodes_wellFormedOrNot :
    repositoryAt wellFormedOrNot [] "/repo" = .ok ["repo"] ∧
      wellFormedOrNot.WellNamed ∧ wellFormedOrNot.TextNamed ∧
      ∃ report, analyze {} wellFormedOrNot {} [] "/repo" = .ok report ∧
        report.fileNodes = (repositoryFiles wellFormedOrNot ["repo"] {}).map SourceFile.node ∧
        ((repositoryFiles wellFormedOrNot ["repo"] {}).map SourceFile.id).Nodup := by
  have hroot : repositoryAt wellFormedOrNot [] "/repo" = .ok ["repo"] := by cbv
  have hnamed : wellFormedOrNot.WellNamed := by decide
  have htext : wellFormedOrNot.TextNamed := by decide +kernel
  obtain ⟨report, hreport, -, heach⟩ :=
    @file_nodes_eq {} wellFormedOrNot [] ["repo"] "/repo" hroot {} rfl
  exact ⟨hroot, hnamed, htext, report, hreport, heach hnamed htext⟩

/-! ## Names that are shown alike -/

/-- Two Python files of one directory whose names are no texts and are shown alike. -/
def shownAlike (first second : List UInt8) : FileTree :=
  .directory [("repo", .directory
    [(⟨[0x61, 0xfe, 0x2e, 0x70, 0x79]⟩, .file first),
      (⟨[0x61, 0xff, 0x2e, 0x70, 0x79]⟩, .file second)])]

/-- The first of the two files. -/
def firstShownAlike : SourceFile :=
  SourceFile.at ["repo"] [⟨[0x61, 0xfe, 0x2e, 0x70, 0x79]⟩]

/-- The second of the two files. -/
def secondShownAlike : SourceFile :=
  SourceFile.at ["repo"] [⟨[0x61, 0xff, 0x2e, 0x70, 0x79]⟩]

theorem repositoryFiles_shownAlike (first second : List UInt8) :
    repositoryFiles (shownAlike first second) ["repo"] {}
      = [firstShownAlike, secondShownAlike] := by
  have hroot : (shownAlike first second).get? ["repo"] = some (.directory
      [(⟨[0x61, 0xfe, 0x2e, 0x70, 0x79]⟩, .file first),
        (⟨[0x61, 0xff, 0x2e, 0x70, 0x79]⟩, .file second)]) := rfl
  rw [repositoryFiles, ignoredIn_of_missing hroot rfl]
  cbv

theorem path_secondShownAlike : secondShownAlike.path = firstShownAlike.path := by
  have hsecond : secondShownAlike.path = "a\ufffd.py" := by cbv
  have hfirst : firstShownAlike.path = "a\ufffd.py" := by cbv
  rw [hsecond, hfirst]

theorem repositoryAt_shownAlike (first second : List UInt8) :
    repositoryAt (shownAlike first second) [] "/repo" = .ok ["repo"] := by
  cbv

/-- **Two files may have one node**: where names are no texts, two files are found that are shown
under one path, and the report has one node for both. -/
theorem file_nodes_shared :
    repositoryAt (shownAlike [] []) [] "/repo" = .ok ["repo"] ∧ (shownAlike [] []).WellNamed ∧
      firstShownAlike.location ≠ secondShownAlike.location ∧
      repositoryFiles (shownAlike [] []) ["repo"] {} = [firstShownAlike, secondShownAlike] ∧
      ∃ report, analyze {} (shownAlike [] []) {} [] "/repo" = .ok report ∧
        report.fileNodes = [firstShownAlike.node] ∧
        report.fileNodes ≠ [firstShownAlike, secondShownAlike].map SourceFile.node := by
  have hroot := repositoryAt_shownAlike [] []
  have hfiles := repositoryFiles_shownAlike [] []
  have hsame : secondShownAlike.node = firstShownAlike.node := by
    have hfound : ∀ file ∈ [firstShownAlike, secondShownAlike],
        file ∈ repositoryFiles (shownAlike [] []) ["repo"] {} := fun _ h => hfiles ▸ h
    exact node_eq_of_path_eq (hfound _ (by simp)) (hfound _ (by simp)) path_secondShownAlike
  have hnodes : (repositoryReport (shownAlike [] []) {} ["repo"]).fileNodes
      = [firstShownAlike.node] := by
    rw [(hasFileNodes_repositoryReport (shownAlike [] []) {} ["repo"]).fileNodes_eq, hfiles,
      List.map_cons, List.map_singleton, hsame]
    simp [firsts]
  refine ⟨hroot, by decide, by decide, hfiles, _, analyze_eq_ok hroot rfl, hnodes, ?_⟩
  rw [hnodes]
  exact fun h => absurd (congrArg List.length h) (by decide)

end Cartograph
