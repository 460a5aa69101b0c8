import Cartograph.Analysis
import Cartograph.Proofs.Fragment.Growth
import Cartograph.Proofs.Identifiers

/-!
# Fragments are closed

What a file contributes stands on its own: the node of the file is in it, every edge but an import
has both of its ends in it, and an import leads from the node of the file to a placeholder, which is
never a node. Each fact is shown for one step of growing and so holds of every fragment.
-/

namespace Cartograph

/-! ## Sorts of entities -/

/-- What a file declares is neither a file nor a placeholder. -/
theorem Declared.sort {path id : String} (h : Declared path id) :
    sortOf id ≠ "file".toList ∧ sortOf id ≠ "module".toList := by
  cases h <;> simp

/-- What a file declares is known by more than its name. -/
theorem Declared.ne_classRefId {path id : String} (h : Declared path id) (name : String) :
    id ≠ classRefId name := by
  intro heq
  have hsort : sortOf id = "class_ref".toList := by rw [heq, sortOf_classRefId]
  cases h <;> simp at hsort

/-- What a file brings in is declared by the file, or is a class known by name only. -/
theorem Brings.declared_or_classRef {file : SourceFile} {node : Node} {edge : Edge}
    (h : Brings file node edge) :
    Declared file.path node.id ∨ ∃ base, node = Node.classRef base := by
  cases h with
  | owned declared _ _ => exact Or.inl declared
  | @method _ _ label endpoint _ =>
      rw [endpoint]
      exact Or.inl (.endpoint label)
  | base _ base => exact Or.inr ⟨base, rfl⟩

/-- What a file brings in is neither a file nor a placeholder. -/
theorem Brings.sort {file : SourceFile} {node : Node} {edge : Edge} (h : Brings file node edge) :
    sortOf node.id ≠ "file".toList ∧ sortOf node.id ≠ "module".toList := by
  rcases h.declared_or_classRef with declared | ⟨base, rfl⟩
  · exact declared.sort
  · simp [Node.classRef]

/-- The edge leads to the entity. -/
theorem Brings.target {file : SourceFile} {node : Node} {edge : Edge} (h : Brings file node edge) :
    edge.target = node.id := by
  cases h <;> rfl

theorem Brings.ne_imports {file : SourceFile} {node : Node} {edge : Edge}
    (h : Brings file node edge) : edge.kind ≠ .imports := by
  cases h with
  | owned _ _ sort => rcases sort with rfl | rfl <;> exact EdgeKind.noConfusion
  | method _ _ _ => exact EdgeKind.noConfusion
  | base _ _ => exact EdgeKind.noConfusion

/-! ## What one step keeps -/

namespace Graph

/-- Edges that have both ends keep them when a node is added. -/
theorem holdsEnds_addNode {g : Graph} (node : Node) {edge : Edge} (h : g.holdsEnds edge = true) :
    (g.addNode node).holdsEnds edge = true := by
  simp only [holdsEnds, contains_addNode, Bool.and_eq_true, Bool.or_eq_true] at h ⊢
  exact ⟨Or.inl h.1, Or.inl h.2⟩

theorem mem_edges_addEdgeDeferred {g : Graph} {added edge : Edge} :
    edge ∈ (g.addEdgeDeferred added).edges.toList ↔ edge ∈ g.edges.toList ∨ edge = added := by
  simp [addEdgeDeferred]

end Graph

namespace Grown

variable {file : SourceFile} {targets : List String} {g : Graph}

theorem indexed (h : Grown file targets g) : g.Indexed := by
  induction h with
  | bare => exact Graph.Indexed.empty.addNode file.node
  | bring _ _ _ ih => exact (ih.addNode _).addEdgeDeferred _
  | link _ _ _ ih => exact ih.addEdgeDeferred _
  | «import» _ _ ih => exact ih.addEdgeDeferred _

/-- A node of a fragment is the node of the file or was brought in. -/
theorem mem_nodes (h : Grown file targets g) {n : Node} (hn : n ∈ g.nodes) :
    n = file.node ∨ ∃ edge, Brings file n edge := by
  induction h with
  | bare =>
      rcases Graph.mem_nodes_of_mem_addNode hn with hn | rfl
      · simp [Graph.empty] at hn
      · exact Or.inl rfl
  | bring _ brings _ ih =>
      rcases Graph.mem_nodes_of_mem_addNode hn with hn | rfl
      · exact ih hn
      · exact Or.inr ⟨_, brings⟩
  | link _ _ _ ih => exact ih hn
  | «import» _ _ ih => exact ih hn

/-- An edge of a fragment has both ends in it, or is an import of the file. -/
theorem mem_edges (h : Grown file targets g) {edge : Edge} (hedge : edge ∈ g.edges.toList) :
    (edge.kind ≠ .imports ∧ g.holdsEnds edge = true) ∨
      ∃ target ∈ targets, edge = importEdge file target := by
  induction h with
  | bare => simp [SourceFile.bareFragment, Graph.edges_addNode, Graph.empty] at hedge
  | @bring _ _ node _ _ brings held ih =>
      -- the edge that comes with the node has its source in `g` and leads to the node
      rcases Graph.mem_edges_addEdgeDeferred.mp hedge with hold | rfl
      · rw [Graph.edges_addNode] at hold
        exact (ih hold).imp_left fun hclosed => ⟨hclosed.1, Graph.holdsEnds_addNode node hclosed.2⟩
      · refine Or.inl ⟨brings.ne_imports, ?_⟩
        simp [Graph.holdsEnds, Graph.contains_addNode, held, brings.target]
  | link _ sort held ih =>
      rcases Graph.mem_edges_addEdgeDeferred.mp hedge with hold | rfl
      · exact ih hold
      · exact Or.inl ⟨sort, held⟩
  | «import» _ target ih =>
      rcases Graph.mem_edges_addEdgeDeferred.mp hedge with hold | rfl
      · rcases ih hold with hclosed | ⟨t, ht, heq⟩
        · exact Or.inl hclosed
        · exact Or.inr ⟨t, List.mem_append_left _ ht, heq⟩
      · exact Or.inr ⟨target, by simp, rfl⟩

/-- Every import that was noted is an edge of the fragment. -/
theorem importEdge_mem (h : Grown file targets g) {target : String} (ht : target ∈ targets) :
    importEdge file target ∈ g.edges.toList := by
  induction h with
  | bare => cases ht
  | bring _ _ _ ih =>
      rw [Graph.mem_edges_addEdgeDeferred, Graph.edges_addNode]
      exact Or.inl (ih ht)
  | link _ _ _ ih => exact Graph.mem_edges_addEdgeDeferred.mpr (Or.inl (ih ht))
  | «import» _ added ih =>
      rw [Graph.mem_edges_addEdgeDeferred]
      rcases List.mem_append.mp ht with ht | ht
      · exact Or.inl (ih ht)
      · exact Or.inr (by rw [List.mem_singleton.mp ht])

/-! ## Nodes of a fragment -/

/-- The only node of a fragment with the identifier of a file is the node of its own file. -/
theorem eq_node_of_fileId (h : Grown file targets g) {n : Node} (hn : n ∈ g.nodes) {path : String}
    (hid : n.id = fileId path) : n = file.node := by
  rcases h.mem_nodes hn with rfl | ⟨edge, brings⟩
  · rfl
  · exact absurd hid (ne_fileId brings.sort.1 path)

/-- What a class known by name only is in one fragment it is in every other. -/
theorem eq_classRef_of_classRefId (h : Grown file targets g) {n : Node} (hn : n ∈ g.nodes)
    {name : String} (hid : n.id = classRefId name) : n = Node.classRef name := by
  rcases h.mem_nodes hn with rfl | ⟨edge, brings⟩
  · have hsort : sortOf (fileId file.path) = sortOf (classRefId name) := congrArg sortOf hid
    rw [sortOf_fileId, sortOf_classRefId] at hsort
    exact absurd hsort (by decide)
  · rcases brings.declared_or_classRef with declared | ⟨base, rfl⟩
    · exact absurd hid (declared.ne_classRefId name)
    · rw [classRefId_injective hid]

/-- No node of a fragment is a placeholder. -/
theorem id_ne_placeholderId (h : Grown file targets g) {n : Node} (hn : n ∈ g.nodes)
    (target : String) : n.id ≠ placeholderId target := by
  rcases h.mem_nodes hn with rfl | ⟨edge, brings⟩
  · exact ne_placeholderId (by simp [SourceFile.node, SourceFile.id]) target
  · exact ne_placeholderId brings.sort.2 target

end Grown

/-! ## What a file contributes -/

@[simp] theorem SourceFile.nodes_bareFragment (file : SourceFile) :
    file.bareFragment.nodes = #[file.node] := by
  simp [bareFragment, Graph.nodes_addNode, Graph.empty, Graph.contains]

@[simp] theorem SourceFile.edges_bareFragment (file : SourceFile) :
    file.bareFragment.edges = #[] := by
  rw [bareFragment, Graph.edges_addNode]
  rfl

section

variable {file : SourceFile} {tree : FileTree} {settings : ExtractionSettings}

/-- The fragment of a file that was looked into grows from its text. -/
theorem SourceFile.grown_fragment {g : Graph} (h : file.fragment? tree settings = .ok g) :
    ∃ text, file.read tree (file.language.readLimit? settings.readLimit) = .ok text ∧
      Grown file (file.language.importTargets text) g := by
  unfold SourceFile.fragment? at h
  cases hread : file.read tree (file.language.readLimit? settings.readLimit) with
  | error e =>
      rw [hread] at h
      cases h
  | ok text =>
      rw [hread] at h
      exact ⟨text, rfl, Language.grown_fragment h⟩

/-- What a file imports; nothing if it cannot be looked into. -/
def SourceFile.importTargets (file : SourceFile) (tree : FileTree)
    (settings : ExtractionSettings) : List String :=
  match file.fragment? tree settings, file.read tree (file.language.readLimit? settings.readLimit)
    with
  | .ok _, .ok text => file.language.importTargets text
  | _, _ => []

/-- A file contributes a grown fragment, whether or not it can be looked into. -/
theorem SourceFile.grown_contribution (file : SourceFile) (tree : FileTree)
    (settings : ExtractionSettings) :
    Grown file (file.importTargets tree settings) (file.contribution tree settings) := by
  unfold SourceFile.contribution SourceFile.importTargets
  cases h : file.fragment? tree settings with
  | error e => exact .bare
  | ok g =>
      obtain ⟨text, hread, grown⟩ := SourceFile.grown_fragment h
      rw [hread]
      exact grown

/-- A file that cannot be looked into contributes no edge. -/
theorem SourceFile.fragment?_of_mem_edges {edge : Edge}
    (h : edge ∈ (file.contribution tree settings).edges.toList) :
    file.fragment? tree settings = .ok (file.contribution tree settings) := by
  unfold SourceFile.contribution at h ⊢
  split at h
  · rename_i g hg
    rw [hg]
  · simp at h

end

end Cartograph
