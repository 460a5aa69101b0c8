import Cartograph.Analysis
import Cartograph.Proofs.Graph.Index
import Mathlib.Data.List.Induction

/-!
# What merged graphs hold

A merge takes nothing away: it knows the identifiers of both graphs, and its edges are those of the
one followed by those of the other. Main statements: the same of any number of graphs, in the order
in which they are put together (`edges_mergeAll`, `contains_mergeAll`).
-/

namespace Cartograph.Graph

/-! ## Many nodes -/

theorem edges_foldl_addNode (nodes : List Node) (g : Graph) :
    (nodes.foldl addNode g).edges = g.edges := by
  induction nodes generalizing g with
  | nil => rfl
  | cons node rest ih => rw [List.foldl_cons, ih, edges_addNode]

/-- Adding nodes makes their identifiers known and no others. -/
theorem contains_foldl_addNode (nodes : List Node) (g : Graph) (id : String) :
    (nodes.foldl addNode g).contains id = true ↔
      g.contains id = true ∨ id ∈ nodes.map Node.id := by
  induction nodes generalizing g with
  | nil => simp
  | cons node rest ih =>
      rw [List.foldl_cons, ih, contains_addNode, Bool.or_eq_true, beq_iff_eq, List.map_cons,
        List.mem_cons, or_assoc, eq_comm (a := node.id)]

theorem mem_nodes_of_mem_foldl_addNode (nodes : List Node) {g : Graph} {n : Node}
    (h : n ∈ (nodes.foldl addNode g).nodes) : n ∈ g.nodes ∨ n ∈ nodes := by
  induction nodes generalizing g with
  | nil => exact Or.inl h
  | cons node rest ih =>
      rcases ih h with hn | hn
      · rcases mem_nodes_of_mem_addNode hn with hn | rfl
        · exact Or.inl hn
        · exact Or.inr List.mem_cons_self
      · exact Or.inr (List.mem_cons_of_mem node hn)

/-! ## Two graphs -/

/-- A merge adds the nodes of the other graph one at a time, then its edges. -/
theorem merge_eq (g other : Graph) :
    g.merge other
      = { other.nodes.toList.foldl addNode g with edges := g.edges ++ other.edges } := by
  rw [merge, ← Array.foldl_toList, edges_foldl_addNode]

theorem edges_merge (g other : Graph) :
    (g.merge other).edges.toList = g.edges.toList ++ other.edges.toList := by
  rw [merge_eq, Array.toList_append]

theorem contains_merge (g : Graph) {other : Graph} (h : other.Indexed) (id : String) :
    (g.merge other).contains id = true ↔ g.contains id = true ∨ other.contains id = true := by
  rw [merge_eq, h.contains_iff]
  exact contains_foldl_addNode other.nodes.toList g id

theorem mem_nodes_of_mem_merge {g other : Graph} {n : Node} (h : n ∈ (g.merge other).nodes) :
    n ∈ g.nodes ∨ n ∈ other.nodes := by
  rw [merge_eq] at h
  rcases mem_nodes_of_mem_foldl_addNode other.nodes.toList h with h | h
  · exact Or.inl h
  · exact Or.inr (Array.mem_toList_iff.mp h)

theorem Indexed.merge {g : Graph} (h : g.Indexed) (other : Graph) : (g.merge other).Indexed := by
  rw [merge_eq]
  exact (h.foldl_addNode other.nodes.toList).withEdges _

/-! ## Any number of graphs -/

/-- The merge of some graphs, then of one more. -/
theorem mergeAll_concat (graphs : List Graph) (g : Graph) :
    mergeAll (graphs ++ [g]) = (mergeAll graphs).merge g := by
  rw [mergeAll, List.foldl_append]
  rfl

theorem Indexed.mergeAll (graphs : List Graph) : (mergeAll graphs).Indexed :=
  List.foldlRecOn graphs Graph.merge Indexed.empty fun _ held other _ => held.merge other

/-- The edges come in the order of the graphs. -/
theorem edges_mergeAll (graphs : List Graph) :
    (mergeAll graphs).edges.toList = graphs.flatMap fun g => g.edges.toList := by
  -- graphs come in one behind the other, so the last one is taken off first
  induction graphs using List.reverseRecOn with
  | nil => rfl
  | append_singleton graphs g ih =>
      rw [mergeAll_concat, edges_merge, ih, List.flatMap_append, List.flatMap_singleton]

/-- An identifier is known exactly when one of the graphs knows it. -/
theorem contains_mergeAll {graphs : List Graph} (h : ∀ g ∈ graphs, g.Indexed) (id : String) :
    (mergeAll graphs).contains id = true ↔ ∃ g ∈ graphs, g.contains id = true := by
  induction graphs using List.reverseRecOn with
  | nil => simp [mergeAll, empty, contains]
  | append_singleton graphs g ih =>
      rw [mergeAll_concat, contains_merge _ (h g (by simp)),
        ih fun g hg => h g (List.mem_append_left _ hg)]
      simp [or_and_right, exists_or]

/-- Every node of the merge is a node of one of the graphs. -/
theorem mem_nodes_of_mem_mergeAll {graphs : List Graph} {n : Node}
    (h : n ∈ (mergeAll graphs).nodes) : ∃ g ∈ graphs, n ∈ g.nodes := by
  induction graphs using List.reverseRecOn with
  | nil => simp [mergeAll, empty] at h
  | append_singleton graphs g ih =>
      rw [mergeAll_concat] at h
      rcases mem_nodes_of_mem_merge h with h | h
      · obtain ⟨held, hheld, hn⟩ := ih h
        exact ⟨held, List.mem_append_left _ hheld, hn⟩
      · exact ⟨g, by simp, h⟩

end Cartograph.Graph
