import Cartograph.Proofs.FileNodes
import Cartograph.Proofs.Imports.Dotted
import Cartograph.Proofs.Traces

/-!
# Files that are not well-formed

A Python file that is not well-formed contributes its node and nothing else, like an empty one, and
the resolver for Python files knows it all the same. So what stands in such a file does not matter
to a report (`malformed_isolated`).
-/

namespace Cartograph

/-! ## What such a file contributes -/

namespace Python

/-- A Python file that holds these bytes is not well-formed. -/
def refuses (bytes : List UInt8) : Bool :=
  (Tree.ofText (sourceText bytes none)).hasFault

/-- An empty Python file is well-formed and declares nothing. -/
theorem fragment_nil (file : SourceFile) : fragment file [] = .ok file.bareFragment := by
  have hempty : Tree.ofText [] = .node .module 1 [] := by cbv
  rw [fragment, hempty]
  rfl

/-- The bytes are no well-formed Python file, or there are none. -/
def Barren (bytes : List UInt8) : Prop :=
  bytes = [] ∨ refuses bytes = true

/-- **A Python file that is not well-formed contributes its node only**, and so does an empty
one. -/
theorem contribution_of_barren {file : SourceFile} (hlanguage : file.language = .python)
    {tree : FileTree} {bytes : List UInt8}
    (hread : tree.readBytes [] file.location = .ok bytes) (h : Barren bytes)
    (settings : ExtractionSettings) : file.contribution tree settings = file.bareFragment := by
  have hfragment : file.fragment? tree settings = fragment file (sourceText bytes none) := by
    rw [SourceFile.fragment?, SourceFile.read, hread, hlanguage]
    rfl
  rw [SourceFile.contribution, hfragment]
  rcases h with rfl | hrefuses
  · have hnone : sourceText [] none = [] := by cbv
    rw [hnone, fragment_nil]
  · rw [refuses] at hrefuses
    rw [fragment, if_pos hrefuses]

end Python

/-! ## Replacing what a file holds -/

section

variable {tree : FileTree} {root place : Place} {settings : Settings} {bytes new : List UInt8}

/-- **Files of dedicated languages contribute the same** when bytes that are barren give way to
others, unless a script file reads them. -/
theorem sameContributions_put {files : List SourceFile}
    (hbytes : tree.get? place = some (.file bytes)) (hold : Python.Barren bytes)
    (hnew : Python.Barren new)
    (hscript : ∀ file ∈ files, file.language = .script →
      tree.locate [] file.location ≠ .ok place) (settings : ExtractionSettings) :
    SameContributions files tree (FileTree.put (.file new) place tree) settings settings := by
  intro file hfile hlanguage
  by_cases hplace : tree.locate [] file.location = .ok place
  · have hpython : file.language = .python := by
      cases h : file.language with
      | python => rfl
      | script => exact absurd hplace (hscript file hfile h)
      | generic => exact absurd h hlanguage
    -- what is read through a link to the bytes is as barren as what is read at their place
    rw [Python.contribution_of_barren hpython (FileTree.readBytes_put hbytes hplace) hnew,
      Python.contribution_of_barren hpython (FileTree.readBytes_of_locate hplace hbytes) hold]
  · exact SourceFile.contribution_congr hlanguage (FileTree.readBytes_put_of_ne hbytes hplace) _ _

/-- Replacing barren bytes that only Python files and files of no particular language read leaves
the report as it was. -/
theorem analyze_put {here : Place} {path : RawText}
    (hroot : repositoryAt tree here path = .ok root)
    (hbytes : tree.get? place = some (.file bytes)) (hold : Python.Barren bytes)
    (hnew : Python.Barren new)
    (hscript : ∀ file ∈ repositoryFiles tree root settings.discovery,
      file.language = .script → tree.locate [] file.location ≠ .ok place)
    (hignore : tree.locate root ignoreFile ≠ .ok place) (host : Host) :
    analyze host (FileTree.put (.file new) place tree) settings here path
      = analyze host tree settings here path :=
  analyze_congr hroot (FileTree.sameEntries_put hbytes new)
    (FileTree.readBytes_put_of_ne hbytes hignore) rfl rfl
    (sameContributions_put hbytes hold hnew hscript settings.extraction) host

end

/-! ## What a file leaves behind -/

/-- What a file brings in is at its path, or nowhere. -/
theorem Brings.path {file : SourceFile} {node : Node} {edge : Edge} (h : Brings file node edge) :
    node.path = file.path ∨ node.path = "" := by
  cases h with
  | owned _ here _ => exact Or.inl here
  | method _ _ here => exact Or.inl here
  | base _ _ => exact Or.inr rfl

section

variable {tree : FileTree} {settings : ExtractionSettings} {files : List SourceFile}
  {file : SourceFile}

/-- A node at the path of a file is brought in by a file with this path. -/
theorem exists_of_path_eq (hpath : file.path ≠ "") {n : Node}
    (hn : n ∈ (combined tree settings files).nodes) (heq : n.path = file.path) :
    ∃ other ∈ files, other.path = file.path ∧ n ∈ (other.contribution tree settings).nodes := by
  obtain ⟨other, hother, hmem⟩ := mem_nodes_of_mem_combined hn
  refine ⟨other, hother, ?_, hmem⟩
  rcases (other.grown_contribution tree settings).mem_nodes hmem with rfl | ⟨edge, brings⟩
  · exact heq
  · have hsame := brings.path.resolve_right fun hempty => hpath (heq.symm.trans hempty)
    exact hsame.symm.trans heq

/-- An edge that leaves a file is brought in by a file with the path of this one. -/
theorem exists_of_source_eq (htell : PathsTellLanguages files) {edge : Edge}
    (hedge : edge ∈ ((combined tree settings files).finish files).edges.toList)
    (hsource : edge.source = file.id) :
    ∃ other ∈ files, other.path = file.path ∧
      edge ∈ (other.contribution tree settings).edges.toList.map (redirectAll files) := by
  obtain ⟨other, hother, hlasts⟩ := exists_lasting_of_mem_finish hedge
  exact ⟨other, hother, path_eq_of_source htell hother hlasts hsource,
    (List.mem_filter.mp hlasts).1⟩

/-- **Which imports lead to a Python file**: those of Python files that the resolver for all Python
files sends there. -/
theorem mem_imports_finish_python (hpaths : PathsTellLanguages files) (hfile : file ∈ files)
    (hlanguage : file.language = .python) {source : String} :
    (source, file.id, EdgeKind.imports) ∈
        ((combined tree settings files).finish files).edges.toList.map Edge.triple ↔
      ∃ importer ∈ files, importer.language = .python ∧ importer.id = source ∧
        ∃ module, importer.Imports tree settings module ∧
          (Dotted.Index.ofFiles (filesOf .python files)).resolve module = some file.id := by
  rw [mem_imports_finish hpaths]
  constructor
  · rintro ⟨importer, himporter, r, hr, hfamily, rfl, module, himports, hresolve⟩
    obtain ⟨other, hother, hsame, hid⟩ := Resolver.exists_of_resolve hr hresolve
    have hpython : r.language = .python := by
      rw [← hsame, hpaths other hother file hfile (fileId_injective hid), hlanguage]
    rcases List.mem_pair.mp hr with rfl | rfl
    · exact ⟨importer, himporter, hfamily, rfl, module, himports, hresolve⟩
    · cases hpython
  · rintro ⟨importer, himporter, hfamily, rfl, module, himports, hresolve⟩
    exact ⟨importer, himporter, _, List.mem_pair.mpr (Or.inl rfl), hfamily, rfl, module, himports,
      hresolve⟩

end

/-- The file has its node and leaves nothing else behind, and other Python files import it like any
file. -/
structure Report.Isolates (report : Report) (tree : FileTree) (settings : Settings) (root : Place)
    (file : SourceFile) : Prop where
  contribution_eq : file.contribution tree settings.extraction = file.bareFragment
  node_mem : file.node ∈ report.nodes.map RatedNode.node
  /-- No other node is in the file, but for what another file brings in that is shown under the same
  path. -/
  eq_node : ∀ rated ∈ report.nodes, rated.node.path = file.path → rated.node = file.node ∨
    ∃ other ∈ repositoryFiles tree root settings.discovery, other ≠ file ∧
      other.path = file.path ∧ rated.node ∈ (other.contribution tree settings.extraction).nodes
  /-- No edge leaves the file, but for those of another file that is shown under the same path. -/
  source_eq : ∀ edge ∈ report.edges, edge.source = file.id →
    ∃ other ∈ repositoryFiles tree root settings.discovery, other ≠ file ∧
      other.path = file.path ∧ edge ∈ (other.contribution tree settings.extraction).edges.toList.map
        (redirectAll (repositoryFiles tree root settings.discovery))
  /-- Where all names are texts no other file is shown under the same path, so that no other node is
  in the file and no edge leaves it. -/
  alone : tree.TextNamed →
    (∀ rated ∈ report.nodes, rated.node.path = file.path → rated.node = file.node) ∧
      ∀ edge ∈ report.edges, edge.source ≠ file.id
  /-- An import leads to the file if the resolver for all Python files, this one among them, sends
  it there. -/
  imports_iff : ∀ source, (source, file.id, EdgeKind.imports) ∈ report.edges.map Edge.triple ↔
    ∃ importer ∈ repositoryFiles tree root settings.discovery,
      importer.language = .python ∧ importer.id = source ∧
        ∃ module, importer.Imports tree settings.extraction module ∧
          (Dotted.Index.ofFiles (filesOf .python
            (repositoryFiles tree root settings.discovery))).resolve module = some file.id
  /-- An import of the dotted path of the file leads to it if no other Python file has this path. -/
  imports_own : ∀ importer ∈ repositoryFiles tree root settings.discovery,
    importer.language = .python →
      importer.Imports tree settings.extraction (Dotted.modulePath file.path) →
        (∀ other ∈ repositoryFiles tree root settings.discovery, other.language = .python →
          Dotted.modulePath other.path = Dotted.modulePath file.path → other = file) →
            (importer.id, file.id, EdgeKind.imports) ∈ report.edges.map Edge.triple

/-- A Python file that holds barren bytes is isolated. -/
theorem isolates_of_barren {tree : FileTree} {here root : Place} {path : RawText}
    {settings : Settings} (hroot : repositoryAt tree here path = .ok root) (h : tree.WellNamed)
    {file : SourceFile} (hfile : file ∈ repositoryFiles tree root settings.discovery)
    (hlanguage : file.language = .python) {bytes : List UInt8}
    (hread : tree.readBytes [] file.location = .ok bytes) (hbarren : Python.Barren bytes) :
    (repositoryReport tree settings root).Isolates tree settings root file := by
  obtain ⟨entries, hentries⟩ := exists_directory_of_repositoryAt hroot
  have htell := pathsTellLanguages tree root settings.discovery
  have hbare := Python.contribution_of_barren hlanguage hread hbarren settings.extraction
  have hiff : ∀ source, (source, file.id, EdgeKind.imports) ∈
      (repositoryReport tree settings root).edges.map Edge.triple ↔ _ :=
    fun source => mem_imports_finish_python htell hfile hlanguage
  have hnode : ∀ rated ∈ (repositoryReport tree settings root).nodes,
      rated.node.path = file.path → rated.node = file.node ∨
        ∃ other ∈ repositoryFiles tree root settings.discovery, other ≠ file ∧
          other.path = file.path ∧
            rated.node ∈ (other.contribution tree settings.extraction).nodes := by
    intro rated hrated hpath
    have hmem : rated.node ∈ (repositoryReport tree settings root).nodes.map RatedNode.node :=
      List.mem_map_of_mem hrated
    rw [nodes_repositoryReport, Array.mem_toList_iff] at hmem
    have hne := path_ne_empty hentries (h.of_get? hentries).1 hfile
    obtain ⟨other, hother, hsame, hown⟩ := exists_of_path_eq hne hmem hpath
    by_cases heq : other = file
    · rw [heq, hbare, file.nodes_bareFragment] at hown
      exact Or.inl (by simpa using hown)
    · exact Or.inr ⟨other, hother, heq, hsame, hown⟩
  have hsource : ∀ edge ∈ (repositoryReport tree settings root).edges, edge.source = file.id →
      ∃ other ∈ repositoryFiles tree root settings.discovery, other ≠ file ∧
        other.path = file.path ∧
          edge ∈ (other.contribution tree settings.extraction).edges.toList.map
            (redirectAll (repositoryFiles tree root settings.discovery)) := by
    intro edge hedge hleaves
    obtain ⟨other, hother, hsame, hown⟩ := exists_of_source_eq htell hedge hleaves
    refine ⟨other, hother, ?_, hsame, hown⟩
    rintro rfl
    rw [hbare, other.edges_bareFragment] at hown
    cases hown
  refine ⟨hbare, ?_, hnode, hsource, fun htext => ?_, hiff,
    fun importer himporter hpython himports hone => ?_⟩
  · rw [nodes_repositoryReport]
    exact node_mem_combined hfile settings.extraction
  · have hnodup := nodup_paths_repositoryFiles hroot h htext settings.discovery
    have hsame : ∀ other ∈ repositoryFiles tree root settings.discovery,
        other.path = file.path → other = file :=
      fun other hother hpath => List.inj_on_of_nodup_map hnodup hother hfile hpath
    constructor
    · intro rated hrated hpath
      refine (hnode rated hrated hpath).resolve_right ?_
      rintro ⟨other, hother, hne, heq, -⟩
      exact hne (hsame other hother heq)
    · intro edge hedge hleaves
      obtain ⟨other, hother, hne, heq, -⟩ := hsource edge hedge hleaves
      exact hne (hsame other hother heq)
  · refine (hiff importer.id).mpr ⟨importer, himporter, hpython, rfl, _, himports, ?_⟩
    refine Dotted.resolve_modulePath (mem_filesOf.mpr ⟨hfile, hlanguage⟩) fun other hother heq => ?_
    exact hone other (mem_filesOf.mp hother).1 (mem_filesOf.mp hother).2 heq

/-- **A Python file that is not well-formed is isolated.** Unless a script file or the ignore file
is read from the same place, the report is the same when the file is emptied or holds anything else
that is not well-formed. The file keeps its node and can be imported, and it leaves no other node
and no edge. -/
theorem malformed_isolated {host : Host} {tree : FileTree} {here root : Place} {path : RawText}
    {settings : Settings} (hroot : repositoryAt tree here path = .ok root)
    (hpool : host.pool settings.extraction.workers = .ok ()) (h : tree.WellNamed)
    {file : SourceFile} (hfile : file ∈ repositoryFiles tree root settings.discovery)
    (hlanguage : file.language = .python) {place : Place} {bytes new : List UInt8}
    (hplace : tree.resolve [] file.location = .ok (place, .file bytes))
    (hold : Python.refuses bytes = true) (hnew : new = [] ∨ Python.refuses new = true)
    (hscript : ∀ other ∈ repositoryFiles tree root settings.discovery,
      other.language = .script → tree.locate [] other.location ≠ .ok place)
    (hignore : tree.locate root ignoreFile ≠ .ok place) :
    ∃ report, analyze host tree settings here path = .ok report ∧
      analyze host (FileTree.put (.file new) place tree) settings here path = .ok report ∧
      report.Isolates tree settings root file := by
  obtain ⟨hlocate, hbytes⟩ := FileTree.resolve_eq_ok_iff.mp hplace
  have hread := FileTree.readBytes_of_locate hlocate hbytes
  refine ⟨_, analyze_eq_ok hroot hpool, ?_,
    isolates_of_barren hroot h hfile hlanguage hread (Or.inr hold)⟩
  rw [analyze_put hroot hbytes (Or.inr hold) hnew hscript hignore]
  exact analyze_eq_ok hroot hpool

/-- A class that breaks off, a file that imports the file which it is in, and a script file. -/
def brokenClass : FileTree :=
  .directory [("repo", .directory
    [("a.py", .file (Text.Utf8.encode "class (:\n")),
      ("b.py", .file (Text.Utf8.encode "import a\n")),
      ("m.js", .file (Text.Utf8.encode "require('./a');\n"))])]

theorem get?_brokenClass : brokenClass.get? ["repo"] = some (.directory
    [("a.py", .file (Text.Utf8.encode "class (:\n")),
      ("b.py", .file (Text.Utf8.encode "import a\n")),
      ("m.js", .file (Text.Utf8.encode "require('./a');\n"))]) := rfl

theorem repositoryFiles_brokenClass : repositoryFiles brokenClass ["repo"] {}
    = [SourceFile.at ["repo"] ["a.py"], SourceFile.at ["repo"] ["b.py"],
        SourceFile.at ["repo"] ["m.js"]] := by
  rw [repositoryFiles, ignoredIn_of_missing get?_brokenClass rfl]
  cbv

/-- Only `a.py` is read from where the class breaks off. -/
theorem locate_script_brokenClass : ∀ other ∈ repositoryFiles brokenClass ["repo"] {},
    other.language = .script → brokenClass.locate [] other.location ≠ .ok ["repo", "a.py"] := by
  intro other hother hlanguage
  rw [repositoryFiles_brokenClass] at hother
  simp only [List.mem_cons, List.not_mem_nil, or_false] at hother
  have hpython : (SourceFile.at ["repo"] ["a.py"]).language = .python ∧
      (SourceFile.at ["repo"] ["b.py"]).language = .python := ⟨by cbv, by cbv⟩
  rcases hother with rfl | rfl | rfl
  · rw [hpython.1] at hlanguage
    cases hlanguage
  · rw [hpython.2] at hlanguage
    cases hlanguage
  · have hplace : brokenClass.locate [] (SourceFile.at ["repo"] ["m.js"]).location
        = .ok ["repo", "m.js"] := by cbv
    rw [hplace]
    exact fun h => absurd (Except.ok.inj h) (by decide)

/-- The class that breaks off may as well be a function that does. -/
theorem brokenClass_isolated :
    repositoryAt brokenClass [] "/repo" = .ok ["repo"] ∧ brokenClass.WellNamed ∧
      Python.refuses (Text.Utf8.encode "class (:\n") = true ∧
      Python.refuses (Text.Utf8.encode "def f(\n") = true ∧
      ∃ report, analyze {} brokenClass {} [] "/repo" = .ok report ∧
        analyze {} (FileTree.put (.file (Text.Utf8.encode "def f(\n")) ["repo", "a.py"] brokenClass)
          {} [] "/repo" = .ok report ∧
        report.Isolates brokenClass {} ["repo"] (SourceFile.at ["repo"] ["a.py"]) := by
  have hroot : repositoryAt brokenClass [] "/repo" = .ok ["repo"] := by cbv
  have hnamed : brokenClass.WellNamed := by decide
  have hold : Python.refuses (Text.Utf8.encode "class (:\n") = true := by cbv
  have hnew : Python.refuses (Text.Utf8.encode "def f(\n") = true := by cbv
  have hfile : SourceFile.at ["repo"] ["a.py"] ∈
      repositoryFiles brokenClass ["repo"] ({} : Settings).discovery := by
    rw [repositoryFiles_brokenClass]
    exact List.mem_cons_self
  have hplace : brokenClass.resolve [] (SourceFile.at ["repo"] ["a.py"]).location
      = .ok (["repo", "a.py"], .file (Text.Utf8.encode "class (:\n")) := by cbv
  have hignore : brokenClass.locate ["repo"] ignoreFile ≠ .ok ["repo", "a.py"] := by
    rw [locate_of_missing get?_brokenClass rfl]
    exact fun h => absurd (Except.ok.inj h) (by decide)
  exact ⟨hroot, hnamed, hold, hnew, malformed_isolated hroot rfl hnamed hfile (by cbv) hplace
    hold (Or.inr hnew) locate_script_brokenClass hignore⟩

end Cartograph
