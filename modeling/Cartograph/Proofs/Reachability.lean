import Cartograph.Proofs.Conservation
import Mathlib.Logic.Relation

/-!
# No entity stands alone

An entity comes into a fragment together with an edge that leads to it, and this edge begins at the
node of the file or at a class that came in the same way. No such edge is an import, so all of them
are still there at the end. Main statement: from the nodes of the files all other nodes of a report
are reached, those of a file by edges that say what the file holds (`all_nodes_reached`).
-/

namespace Cartograph

/-! ## Paths along edges -/

/-- An edge of one of the kinds leads from one identifier to the other. -/
def Links (edges : List Edge) (kinds : EdgeKind → Prop) (a b : String) : Prop :=
  ∃ edge ∈ edges, edge.source = a ∧ edge.target = b ∧ kinds edge.kind

/-- Edges of the kinds lead from one identifier to the other, one after the other. -/
def Reaches (edges : List Edge) (kinds : EdgeKind → Prop) : String → String → Prop :=
  Relation.TransGen (Links edges kinds)

/-- Edges of this kind say what a file or a class holds. -/
def EdgeKind.Owning (kind : EdgeKind) : Prop :=
  kind = .uses ∨ kind = .endpointHandler

theorem EdgeKind.Owning.ne_imports {kind : EdgeKind} (h : kind.Owning) : kind ≠ .imports := by
  rcases h with rfl | rfl <;> exact EdgeKind.noConfusion

/-- A path stays a path where every edge of it has its like. -/
theorem Reaches.mono {edges others : List Edge} {kinds wider : EdgeKind → Prop} {a b : String}
    (h : Reaches edges kinds a b) (hlinks : ∀ c d, Links edges kinds c d → Links others wider c d) :
    Reaches others wider a b :=
  Relation.TransGen.mono (fun c d => hlinks c d) a b h

/-! ## Fragments -/

namespace Grown

variable {file : SourceFile} {targets : List String} {g : Graph}

/-- **Every entity has come in with an edge** that is still there. -/
theorem exists_brings (h : Grown file targets g) {n : Node} (hn : n ∈ g.nodes) :
    n = file.node ∨ ∃ edge ∈ g.edges.toList, Brings file n edge := by
  induction h with
  | bare =>
      rw [SourceFile.nodes_bareFragment] at hn
      exact Or.inl (by simpa using hn)
  | bring _ brings _ ih =>
      simp only [Graph.mem_edges_addEdgeDeferred, Graph.edges_addNode]
      rcases Graph.mem_nodes_of_mem_addNode hn with hn | rfl
      · exact (ih hn).imp_right fun ⟨edge, hedge, hbrings⟩ => ⟨edge, Or.inl hedge, hbrings⟩
      · exact Or.inr ⟨_, Or.inr rfl, brings⟩
  | link _ _ _ ih =>
      simp only [Graph.mem_edges_addEdgeDeferred]
      exact (ih hn).imp_right fun ⟨edge, hedge, hbrings⟩ => ⟨edge, Or.inl hedge, hbrings⟩
  | «import» _ _ ih =>
      simp only [Graph.mem_edges_addEdgeDeferred]
      exact (ih hn).imp_right fun ⟨edge, hedge, hbrings⟩ => ⟨edge, Or.inl hedge, hbrings⟩

/-- A class that is there hangs on the node of its file. -/
theorem links_class (h : Grown file targets g) {name : String}
    (held : g.contains (classId file.path name) = true) :
    Links g.edges.toList EdgeKind.Owning file.id (classId file.path name) := by
  obtain ⟨n, hn, hid⟩ := List.mem_map.mp (h.indexed.contains_iff.mp held)
  have hsort : sortOf n.id = "class".toList := by rw [hid, sortOf_classId]
  rcases h.exists_brings (Array.mem_toList_iff.mp hn) with rfl | ⟨edge, hedge, hbrings⟩
  · simp [SourceFile.node, SourceFile.id] at hsort
  · cases hbrings with
    | owned _ _ sort => exact ⟨_, hedge, rfl, hid, sort⟩
    | method _ endpoint _ =>
        rw [endpoint, sortOf_endpointId] at hsort
        exact absurd hsort (by decide)
    | base _ _ =>
        rw [Node.classRef, sortOf_classRefId] at hsort
        exact absurd hsort (by decide)

/-- The class where an edge of a fragment begins is there. -/
theorem links_class_of_mem (h : Grown file targets g) {edge : Edge} (hedge : edge ∈ g.edges.toList)
    (hkind : edge.kind ≠ .imports) {name : String}
    (hsource : edge.source = classId file.path name) :
    Links g.edges.toList EdgeKind.Owning file.id (classId file.path name) := by
  rcases h.mem_edges hedge with ⟨-, hends⟩ | ⟨target, -, rfl⟩
  · rw [Graph.holdsEnds, Bool.and_eq_true, hsource] at hends
    exact h.links_class hends.1
  · exact absurd rfl hkind

/-- **Every entity hangs on the node of its file**: what the file declares by edges that say what it
holds, and a class known by name only as the base of a class that the file declares. -/
theorem reaches_cases (h : Grown file targets g) {n : Node} (hn : n ∈ g.nodes)
    (hne : n ≠ file.node) :
    (Declared file.path n.id ∧ n.path = file.path ∧
        Reaches g.edges.toList EdgeKind.Owning file.id n.id) ∨
      ∃ name base, n = Node.classRef base ∧
        Links g.edges.toList EdgeKind.Owning file.id (classId file.path name) ∧
        Links g.edges.toList (· = .inherits) (classId file.path name) n.id := by
  rcases h.exists_brings hn with rfl | ⟨edge, hedge, hbrings⟩
  · exact absurd rfl hne
  · cases hbrings with
    | owned declared here sort =>
        exact Or.inl ⟨declared, here, .single ⟨_, hedge, rfl, rfl, sort⟩⟩
    | method name endpoint here =>
        -- the edge begins at a class, so the path leads over the class
        have hclass := h.links_class_of_mem hedge EdgeKind.noConfusion rfl
        exact Or.inl ⟨endpoint ▸ .endpoint _, here,
          .tail (.single hclass) ⟨_, hedge, rfl, rfl, Or.inr rfl⟩⟩
    | base name base =>
        have hclass := h.links_class_of_mem hedge EdgeKind.noConfusion rfl
        exact Or.inr ⟨name, base, rfl, hclass, _, hedge, rfl, rfl, rfl⟩

end Grown

/-! ## Reports -/

/-- No entity of the report stands alone: all are reached from the nodes of the files. -/
structure Report.NoOrphans (report : Report) (files : List SourceFile) : Prop where
  /-- A node is that of a file, or it is reached from the node of a file. -/
  reached : ∀ n ∈ report.nodes.map RatedNode.node,
    (∃ file ∈ files, n = file.node) ∨
      ∃ file ∈ files, file.node ∈ report.nodes.map RatedNode.node ∧
        Reaches report.edges (fun _ => True) file.id n.id
  /-- A class known by name only is a base of some class. -/
  inherited : ∀ n ∈ report.nodes.map RatedNode.node, ∀ name, n.id = classRefId name →
    ∃ edge ∈ report.edges, edge.kind = .inherits ∧ edge.target = n.id
  /-- What is at a path and is not the file at this path is reached from there by edges that say
  what a file or a class holds. -/
  owned : ∀ n ∈ report.nodes.map RatedNode.node, n.path ≠ "" → n.id ≠ fileId n.path →
    Reaches report.edges (fun kind => kind = .uses ∨ kind = .endpointHandler) (fileId n.path) n.id

section

variable {tree : FileTree} {settings : ExtractionSettings} {files : List SourceFile}

/-- **The links in the end** are those in the fragments, but for imports. -/
theorem links_finish_iff {kinds : EdgeKind → Prop} (hkinds : ∀ kind, kinds kind → kind ≠ .imports)
    {a b : String} : Links ((combined tree settings files).finish files).edges.toList kinds a b ↔
      ∃ file ∈ files, Links (file.contribution tree settings).edges.toList kinds a b := by
  constructor
  · rintro ⟨edge, hedge, rfl, rfl, hkind⟩
    have hfirst := (mem_edges_finish_of_ne_imports (hkinds _ hkind)).mp hedge
    obtain ⟨file, hfile, hmem⟩ := List.mem_flatMap.mp hfirst.mem
    exact ⟨file, hfile, edge, hmem, rfl, rfl, hkind⟩
  · rintro ⟨file, hfile, edge, hedge, rfl, rfl, hkind⟩
    have htriple : edge.triple ∈
        ((combined tree settings files).finish files).edges.toList.map Edge.triple :=
      (mem_triples_finish_of_ne_imports (hkinds _ hkind)).mpr
        ⟨file, hfile, List.mem_map_of_mem hedge⟩
    obtain ⟨other, hother, hsame⟩ := List.mem_map.mp htriple
    simp only [Edge.triple, Prod.mk.injEq] at hsame
    exact ⟨other, hother, hsame.1, hsame.2.1, hsame.2.2 ▸ hkind⟩

/-- The links of one kind in the end, if it is not that of imports. -/
theorem links_kind_finish_iff {kind : EdgeKind} (h : kind ≠ .imports) {a b : String} :
    Links ((combined tree settings files).finish files).edges.toList (· = kind) a b ↔
      ∃ file ∈ files, Links (file.contribution tree settings).edges.toList (· = kind) a b := by
  refine links_finish_iff ?_
  rintro _ rfl
  exact h

/-- What becomes of the path to an entity in its fragment. -/
theorem reaches_finish_cases {n : Node} (hn : n ∈ (combined tree settings files).nodes) :
    (∃ file ∈ files, n = file.node) ∨ ∃ file ∈ files,
      (Declared file.path n.id ∧ n.path = file.path ∧
          Reaches ((combined tree settings files).finish files).edges.toList EdgeKind.Owning file.id
            n.id) ∨
        ∃ name base, n = Node.classRef base ∧
          Links ((combined tree settings files).finish files).edges.toList EdgeKind.Owning file.id
            (classId file.path name) ∧
          Links ((combined tree settings files).finish files).edges.toList (· = .inherits)
            (classId file.path name) n.id := by
  obtain ⟨file, hfile, hmem⟩ := mem_nodes_of_mem_combined hn
  by_cases hnode : n = file.node
  · exact Or.inl ⟨file, hfile, hnode⟩
  · have howning : ∀ c d, Links (file.contribution tree settings).edges.toList EdgeKind.Owning c d →
        Links ((combined tree settings files).finish files).edges.toList EdgeKind.Owning c d :=
      fun c d hlink =>
        (links_finish_iff fun _ => EdgeKind.Owning.ne_imports).mpr ⟨file, hfile, hlink⟩
    refine Or.inr ⟨file, hfile, ?_⟩
    rcases (file.grown_contribution tree settings).reaches_cases hmem hnode with
      ⟨declared, hpath, hreaches⟩ | ⟨name, base, hbase, hclass, hinherits⟩
    · exact Or.inl ⟨declared, hpath, hreaches.mono howning⟩
    · have hfinish := (links_kind_finish_iff EdgeKind.noConfusion).mpr ⟨file, hfile, hinherits⟩
      exact Or.inr ⟨name, base, hbase, howning _ _ hclass, hfinish⟩

end

/-- **No entity stands alone.** Every repository gets a report in which each node is the node of a
file or is reached from one; a class known by name only is the base of some class, and what a file
declares is reached from the node of that file by edges that say what a file or a class holds. -/
theorem all_nodes_reached {host : Host} {tree : FileTree} {here root : Place} {path : RawText}
    (h : repositoryAt tree here path = .ok root) {settings : Settings}
    (hpool : host.pool settings.extraction.workers = .ok ()) :
    ∃ report, analyze host tree settings here path = .ok report ∧
      report.NoOrphans (repositoryFiles tree root settings.discovery) := by
  refine ⟨_, analyze_eq_ok h hpool, ?_⟩
  have hnodes := nodes_repositoryReport tree settings root
  set files := repositoryFiles tree root settings.discovery with hfiles
  have hcases : ∀ n ∈ (repositoryReport tree settings root).nodes.map RatedNode.node, _ :=
    fun n hn => reaches_finish_cases (Array.mem_toList_iff.mp (hnodes ▸ hn))
  refine ⟨fun n hn => ?_, fun n hn name hid => ?_, fun n hn hpath hid => ?_⟩
  · rcases hcases n hn with hfile | ⟨file, hfile, hway⟩
    · exact Or.inl hfile
    · have hwide : ∀ {kinds : EdgeKind → Prop} (c d : String),
          Links (repositoryReport tree settings root).edges kinds c d →
            Links (repositoryReport tree settings root).edges (fun _ => True) c d :=
        fun c d ⟨edge, hedge, hsource, htarget, _⟩ => ⟨edge, hedge, hsource, htarget, trivial⟩
      refine Or.inr ⟨file, hfile, ?_, ?_⟩
      · rw [hnodes]
        exact node_mem_combined hfile settings.extraction
      · rcases hway with ⟨-, -, hreaches⟩ | ⟨name, base, -, hclass, hinherits⟩
        · exact hreaches.mono hwide
        · exact .tail (.single (hwide _ _ hclass)) (hwide _ _ hinherits)
  · rcases hcases n hn with ⟨file, -, rfl⟩ | ⟨file, -, ⟨declared, -⟩ | ⟨_, _, -, -, hinherits⟩⟩
    · exact absurd hid.symm (ne_fileId (by rw [sortOf_classRefId]; decide) file.path)
    · exact absurd hid (declared.ne_classRefId name)
    · obtain ⟨edge, hedge, -, htarget, hkind⟩ := hinherits
      exact ⟨edge, hedge, hkind, htarget⟩
  · rcases hcases n hn with ⟨file, -, rfl⟩ | ⟨file, -, ⟨-, hsame, hreaches⟩ | ⟨_, _, rfl, -⟩⟩
    · exact absurd rfl hid
    · rw [hsame]
      exact hreaches
    · exact absurd rfl hpath

/-- A class with a base and an endpoint, which is two edges away from its file, and a script with a
class of the same base. -/
def endpointInClass : FileTree :=
  .directory [("repo", .directory
    [("a.py", .file (Text.Utf8.encode "class A(Base):\n    @get\n    def f(self): pass\n")),
      ("b.js", .file (Text.Utf8.encode "class B extends Base {}\nrouter.use('/', f)\n"))])]

/-- No entity of the two files stands alone. -/
theorem reached_endpointInClass : ∃ report, analyze {} endpointInClass {} [] "/repo" = .ok report ∧
    report.NoOrphans (repositoryFiles endpointInClass ["repo"] {}) :=
  all_nodes_reached (by cbv) rfl

end Cartograph
