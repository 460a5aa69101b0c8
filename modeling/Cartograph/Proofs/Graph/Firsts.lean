import Cartograph.Proofs.Graph.Index

/-!
# First nodes

Of several nodes with one identifier the first one counts. `firsts` says so of a list of nodes,
without a graph and without an index. Main statements: nodes that are added to a graph one at a time
leave the first of them behind what was there (`nodes_foldl_addNode`), and a look-up finds among the
first nodes what it finds among all (`find?_firsts`).
-/

namespace Cartograph

/-- The nodes whose identifier no node before them has. -/
def firsts : List Node → List Node
  | [] => []
  | node :: rest => node :: (firsts rest).filter fun n => n.id ≠ node.id

/-- A look-up comes to the first node that has the identifier. -/
theorem find?_firsts (nodes : List Node) (id : String) :
    ((firsts nodes).find? fun n => n.id = id) = nodes.find? fun n => n.id = id := by
  induction nodes with
  | nil => rfl
  | cons node rest ih =>
      rw [firsts]
      by_cases hid : node.id = id
      · rw [List.find?_cons_of_pos (by simpa using hid),
          List.find?_cons_of_pos (by simpa using hid)]
      · -- what the filter drops has the identifier of `node`, and that is not looked for
        have hkept : ∀ n : Node,
            decide (decide (n.id ≠ node.id) = true ∧ decide (n.id = id) = true)
              = decide (n.id = id) := by
          intro n
          rw [decide_eq_decide, decide_eq_true_iff, decide_eq_true_iff]
          refine ⟨fun h => h.2, fun h => ⟨fun hnode => hid ?_, h⟩⟩
          exact hnode.symm.trans h
        rw [List.find?_cons_of_neg (by simpa using hid),
          List.find?_cons_of_neg (by simpa using hid), List.find?_filter]
        simp only [hkept]
        exact ih

/-- A node is a first one if a look-up for its identifier comes to it. -/
theorem mem_firsts_iff {nodes : List Node} {node : Node} :
    node ∈ firsts nodes ↔ (nodes.find? fun n => n.id = node.id) = some node := by
  induction nodes with
  | nil => simp [firsts]
  | cons first rest ih =>
      rw [firsts, List.mem_cons, List.mem_filter, ih]
      by_cases hid : first.id = node.id
      · rw [List.find?_cons_of_pos (by simpa using hid), Option.some_inj]
        constructor
        · rintro (heq | ⟨-, hother⟩)
          · exact heq.symm
          · exact absurd hid.symm (of_decide_eq_true hother)
        · exact fun heq => Or.inl heq.symm
      · rw [List.find?_cons_of_neg (by simpa using hid)]
        constructor
        · rintro (rfl | ⟨hrest, -⟩)
          · exact absurd rfl hid
          · exact hrest
        · exact fun hrest => Or.inr ⟨hrest, decide_eq_true (Ne.symm hid)⟩

/-- First nodes are among all. -/
theorem mem_of_mem_firsts {nodes : List Node} {node : Node} (h : node ∈ firsts nodes) :
    node ∈ nodes :=
  List.mem_of_find?_eq_some (mem_firsts_iff.mp h)

/-- Every node has its identifier in common with a first one. -/
theorem exists_mem_firsts {nodes : List Node} {node : Node} (h : node ∈ nodes) :
    ∃ first ∈ firsts nodes, first.id = node.id := by
  have hfound : (nodes.find? fun n => n.id = node.id).isSome = true :=
    List.find?_isSome.mpr ⟨node, h, decide_eq_true rfl⟩
  obtain ⟨first, hfirst⟩ := Option.isSome_iff_exists.mp hfound
  have hid := List.find?_some hfirst
  rw [decide_eq_true_iff] at hid
  exact ⟨first, mem_firsts_iff.mpr (by rw [hid, hfirst]), hid⟩

/-- No identifier stands twice among first nodes. -/
theorem nodup_firsts (nodes : List Node) : ((firsts nodes).map Node.id).Nodup := by
  induction nodes with
  | nil => exact List.nodup_nil
  | cons node rest ih =>
      rw [firsts, List.map_cons, List.nodup_cons]
      refine ⟨fun hmem => ?_, ih.sublist (List.filter_sublist.map _)⟩
      obtain ⟨other, hother, hid⟩ := List.mem_map.mp hmem
      exact of_decide_eq_true (List.mem_filter.mp hother).2 hid

/-- First nodes that are picked by their identifiers are the first of those that are picked. -/
theorem filter_firsts (p : String → Bool) (nodes : List Node) :
    (firsts nodes).filter (fun n => p n.id) = firsts (nodes.filter fun n => p n.id) := by
  induction nodes with
  | nil => rfl
  | cons node rest ih =>
      have hswap : ((firsts rest).filter fun n => decide (n.id ≠ node.id)).filter (fun n => p n.id)
          = (firsts (rest.filter fun n => p n.id)).filter fun n => decide (n.id ≠ node.id) := by
        rw [← ih, List.filter_filter, List.filter_filter]
        exact List.filter_congr fun n _ => Bool.and_comm _ _
      rw [firsts]
      by_cases hnode : p node.id = true
      · rw [List.filter_cons_of_pos (by exact hnode), List.filter_cons_of_pos (by exact hnode),
          firsts, hswap]
      · -- what has the identifier of `node` is not picked either
        rw [List.filter_cons_of_neg (by exact hnode), List.filter_cons_of_neg (by exact hnode),
          hswap, List.filter_eq_self.mpr]
        intro n hn
        rw [decide_eq_true_iff]
        rintro hid
        rw [← ih, List.mem_filter, hid] at hn
        exact hnode hn.2

/-- Where no identifier stands twice every node is a first one. -/
theorem firsts_of_nodup {nodes : List Node} (h : (nodes.map Node.id).Nodup) :
    firsts nodes = nodes := by
  induction nodes with
  | nil => rfl
  | cons node rest ih =>
      rw [List.map_cons, List.nodup_cons] at h
      rw [firsts, ih h.2, List.filter_eq_self.mpr]
      intro n hn
      rw [decide_eq_true_iff]
      rintro hid
      exact h.1 (hid ▸ List.mem_map_of_mem hn)

namespace Graph

@[simp] theorem contains_empty (id : String) : empty.contains id = false := by
  simp [empty, contains]

/-- **Adding nodes one at a time** leaves those that were there and behind them the first of the new
ones, as far as their identifiers are not taken. -/
theorem nodes_foldl_addNode (nodes : List Node) (g : Graph) :
    (nodes.foldl addNode g).nodes.toList
      = g.nodes.toList ++ (firsts nodes).filter fun n => !g.contains n.id := by
  induction nodes generalizing g with
  | nil => simp [firsts]
  | cons node rest ih =>
      have hfree : ∀ n : Node, (!(g.addNode node).contains n.id)
          = (!g.contains n.id && decide (n.id ≠ node.id)) := by
        intro n
        rw [contains_addNode, Bool.not_or]
        congr 1
        rw [← bne, Bool.eq_iff_iff, bne_iff_ne, decide_eq_true_iff, ne_comm]
      rw [List.foldl_cons, ih, nodes_addNode, firsts]
      simp only [hfree]
      rw [← List.filter_filter]
      by_cases htaken : g.contains node.id = true
      · rw [if_pos htaken, List.filter_cons_of_neg (by simpa using htaken)]
      · rw [if_neg htaken, List.filter_cons_of_pos (by simpa using htaken), Array.toList_push,
          List.append_assoc, List.singleton_append]

/-- Nodes that come into the empty graph leave the first of them. -/
theorem nodes_foldl_addNode_empty (nodes : List Node) :
    (nodes.foldl addNode empty).nodes.toList = firsts nodes := by
  rw [nodes_foldl_addNode]
  simp [empty, contains]

end Graph

end Cartograph
