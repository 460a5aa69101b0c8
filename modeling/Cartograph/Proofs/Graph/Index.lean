import Cartograph.Graph.Basic

/-!
# Graphs and their index

Every operation keeps the index in step with the nodes: the index leads from an identifier to a
position exactly when the node at that position has the identifier (`Indexed`). Main statements: no
identifier of an indexed graph stands twice (`Indexed.nodup_ids`), and the index knows an identifier
exactly when some node has it (`Indexed.contains_iff`).
-/

namespace Cartograph.Graph

/-! ## Identifiers in their order -/

/-- The identifiers of the nodes in their order. -/
def ids (g : Graph) : List String :=
  g.nodes.toList.map Node.id

theorem ids_empty : empty.ids = [] := rfl

/-- A new identifier comes behind all others. -/
theorem ids_addNode (g : Graph) (node : Node) :
    (g.addNode node).ids = if g.contains node.id then g.ids else g.ids ++ [node.id] := by
  unfold ids
  rw [nodes_addNode]
  split <;> simp

/-- A node of the larger graph is an old one or the added one. -/
theorem mem_nodes_of_mem_addNode {g : Graph} {node n : Node} (h : n ∈ (g.addNode node).nodes) :
    n ∈ g.nodes ∨ n = node := by
  rw [nodes_addNode] at h
  split at h
  · exact Or.inl h
  · exact Array.mem_push.mp h

/-! ## The invariant -/

/-- The index tells of every identifier where its node is. -/
structure Indexed (g : Graph) : Prop where
  getElem?_index : ∀ (id : String) (i : Nat), g.index[id]? = some i ↔ g.ids[i]? = some id

namespace Indexed

variable {g : Graph}

/-- The index knows the identifiers of the nodes and no others. -/
theorem contains_iff (h : g.Indexed) {id : String} : g.contains id = true ↔ id ∈ g.ids := by
  rw [contains, Std.HashMap.contains_eq_isSome_getElem?, Option.isSome_iff_exists,
    List.mem_iff_getElem?]
  exact exists_congr fun i => h.getElem?_index id i

/-- Graphs with the same identifiers know the same. -/
theorem contains_congr {other : Graph} (h : g.Indexed) (hother : other.Indexed)
    (hids : g.ids = other.ids) (id : String) : g.contains id = other.contains id := by
  rw [Bool.eq_iff_iff, h.contains_iff, hother.contains_iff, hids]

/-- No identifier stands twice: the index has one position for each. -/
theorem nodup_ids (h : g.Indexed) : g.ids.Nodup := by
  rw [List.Nodup, List.pairwise_iff_getElem]
  intro i j hi hj hlt heq
  have hindexi : g.index[g.ids[i]]? = some i :=
    (h.getElem?_index _ i).mpr (List.getElem?_eq_getElem hi)
  have hindexj : g.index[g.ids[i]]? = some j :=
    (h.getElem?_index _ j).mpr ((List.getElem?_eq_getElem hj).trans (congrArg some heq.symm))
  have : i = j := Option.some.inj (hindexi.symm.trans hindexj)
  omega

/-! ## Looking up -/

/-- The index leads to the position of the node that has the identifier. -/
theorem getElem?_index_iff (h : g.Indexed) {id : String} {i : Nat} :
    g.index[id]? = some i ↔ ∃ n, g.nodes[i]? = some n ∧ n.id = id := by
  rw [h.getElem?_index, ids, List.getElem?_map, Option.map_eq_some_iff, Array.getElem?_toList]

/-- **A look-up finds the node that has the identifier.** -/
theorem node?_eq_some_iff (h : g.Indexed) {id : String} {n : Node} :
    g.node? id = some n ↔ n ∈ g.nodes ∧ n.id = id := by
  have hbind : g.node? id = g.index[id]?.bind fun i => g.nodes[i]? := by
    unfold node?
    cases g.index[id]? <;> rfl
  rw [hbind, Option.bind_eq_some_iff]
  constructor
  · rintro ⟨i, hi, hn⟩
    obtain ⟨m, hm, hid⟩ := h.getElem?_index_iff.mp hi
    obtain rfl : m = n := Option.some.inj (hm.symm.trans hn)
    exact ⟨Array.mem_of_getElem? hn, hid⟩
  · rintro ⟨hn, hid⟩
    obtain ⟨i, hi⟩ := Array.mem_iff_getElem?.mp hn
    exact ⟨i, h.getElem?_index_iff.mpr ⟨n, hi, hid⟩, hi⟩

/-- One identifier stands for one node. -/
theorem eq_of_id_eq (h : g.Indexed) {m n : Node} (hm : m ∈ g.nodes) (hn : n ∈ g.nodes)
    (hid : m.id = n.id) : m = n := by
  have hfound : g.node? n.id = some m := h.node?_eq_some_iff.mpr ⟨hm, hid⟩
  have hagain : g.node? n.id = some n := h.node?_eq_some_iff.mpr ⟨hn, rfl⟩
  exact Option.some.inj (hfound.symm.trans hagain)

/-- A look-up finds the first node that has the identifier, there being no other. -/
theorem node?_eq_find? (h : g.Indexed) (id : String) :
    g.node? id = g.nodes.toList.find? fun n => n.id = id := by
  cases hfind : g.nodes.toList.find? fun n => decide (n.id = id) with
  | none =>
      rw [List.find?_eq_none] at hfind
      rw [Option.eq_none_iff_forall_ne_some]
      intro n hn
      obtain ⟨hmem, hid⟩ := h.node?_eq_some_iff.mp hn
      exact hfind n (Array.mem_toList_iff.mpr hmem) (decide_eq_true hid)
  | some n =>
      have hid : n.id = id := by simpa using List.find?_some hfind
      have hmem : n ∈ g.nodes := Array.mem_toList_iff.mp (List.mem_of_find?_eq_some hfind)
      exact h.node?_eq_some_iff.mpr ⟨hmem, hid⟩

/-! ## Operations -/

theorem empty : Graph.empty.Indexed where
  getElem?_index id i := by
    rw [ids_empty]
    simp [Graph.empty]

/-- Adding a node keeps the index in step: a new node goes to the end of both. -/
theorem addNode (h : g.Indexed) (node : Node) : (g.addNode node).Indexed := by
  by_cases hc : g.contains node.id = true
  · rwa [Graph.addNode, if_pos hc]
  · refine ⟨fun id i => ?_⟩
    have hsize : g.nodes.size = g.ids.length := by simp [ids]
    have hnew : node.id ∉ g.ids := fun hm => hc (h.contains_iff.mpr hm)
    rw [ids_addNode, if_neg hc, Graph.addNode, if_neg hc, Std.HashMap.getElem?_insert, hsize]
    by_cases hid : node.id = id
    · subst hid
      rw [if_pos (beq_self_eq_true node.id), Option.some.injEq]
      -- the node stands behind all others, so `i` is before, at or past its place
      rcases Nat.lt_trichotomy i g.ids.length with hi | hi | hi
      · rw [List.getElem?_append_left hi]
        refine ⟨fun heq => by omega, fun hm => absurd (List.mem_of_getElem? hm) hnew⟩
      · simp [hi]
      · rw [List.getElem?_append_right (by omega), List.getElem?_eq_none (by simp; omega)]
        simp only [reduceCtorEq, iff_false]
        omega
    · have hb : (node.id == id) = false := beq_false_of_ne hid
      rw [hb, if_neg (by simp), h.getElem?_index]
      by_cases hi : i < g.ids.length
      · rw [List.getElem?_append_left hi]
      · rw [List.getElem?_eq_none (by omega), List.getElem?_append_right (by omega)]
        rcases Nat.eq_zero_or_pos (i - g.ids.length) with hz | hz
        · simp [hz, hid]
        · rw [List.getElem?_eq_none (by rw [List.length_singleton]; omega)]

theorem foldl_addNode (h : g.Indexed) (nodes : List Node) : (nodes.foldl Graph.addNode g).Indexed :=
  List.foldlRecOn nodes Graph.addNode h fun _ held node _ => held.addNode node

/-- The edges have no part in the index. -/
theorem withEdges (h : g.Indexed) (edges : Array Edge) : Indexed { g with edges } :=
  ⟨h.getElem?_index⟩

theorem addEdgeDeferred (h : g.Indexed) (edge : Edge) : (g.addEdgeDeferred edge).Indexed :=
  h.withEdges (g.edges.push edge)

end Indexed

end Cartograph.Graph
