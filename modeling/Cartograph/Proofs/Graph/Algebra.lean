import Cartograph.Proofs.Graph.Settled

/-!
# Merging as an operation

A merge leaves the nodes of the first graph where they are, behind them come the nodes of the second
graph whose identifiers are not taken, and edges stand behind edges. So it does not matter how
merges are bracketed, and the empty graph makes no difference on either side. Settling drops every
edge that repeats an earlier one, and with it all that a graph gets when it is merged with itself.
Main statement: these laws hold of all graphs that come about by operations (`merge_laws`).
-/

namespace Cartograph.Graph

/-- The graphs have the same nodes and the same edges, each in the same order. -/
structure Same (g other : Graph) : Prop where
  nodes : g.nodes = other.nodes
  edges : g.edges = other.edges

/-! ## Nodes of a merge -/

/-- A merge passes over the nodes of the other graph whose identifiers are taken. -/
theorem Indexed.nodes_merge {other : Graph} (h : other.Indexed) (g : Graph) :
    (g.merge other).nodes.toList
      = g.nodes.toList ++ other.nodes.toList.filter fun n => !g.contains n.id := by
  rw [merge_eq]
  refine (nodes_foldl_addNode other.nodes.toList g).trans ?_
  rw [firsts_of_nodup h.nodup_ids]

section

variable {a b c : Graph}

/-- **Merges may be bracketed in any way**: a node comes in if no graph in front of its own has its
identifier. -/
theorem merge_assoc (hb : b.Indexed) (hc : c.Indexed) :
    ((a.merge b).merge c).Same (a.merge (b.merge c)) where
  nodes := by
    have hfree : ∀ n : Node, (!(a.merge b).contains n.id)
        = (!a.contains n.id && !b.contains n.id) := by
      intro n
      have hknown : (a.merge b).contains n.id = (a.contains n.id || b.contains n.id) := by
        rw [Bool.eq_iff_iff, contains_merge a hb, Bool.or_eq_true]
      rw [hknown, Bool.not_or]
    rw [← Array.toList_inj, hc.nodes_merge, hb.nodes_merge, (hb.merge c).nodes_merge,
      hc.nodes_merge, List.filter_append, List.filter_filter, List.append_assoc]
    simp only [hfree]
  edges := by
    rw [← Array.toList_inj]
    simp only [edges_merge, List.append_assoc]

/-! ## The empty graph -/

theorem empty_merge (h : a.Indexed) : (empty.merge a).Same a where
  nodes := by
    rw [← Array.toList_inj, h.nodes_merge]
    simp [empty, contains]
  edges := by
    rw [← Array.toList_inj, edges_merge]
    rfl

theorem merge_empty (a : Graph) : (a.merge empty).Same a where
  nodes := by
    rw [← Array.toList_inj, Indexed.empty.nodes_merge]
    exact List.append_nil _
  edges := by
    rw [← Array.toList_inj, edges_merge]
    exact List.append_nil _

/-! ## A graph with itself -/

/-- No node comes in a second time. -/
theorem nodes_merge_self (h : a.Indexed) : (a.merge a).nodes = a.nodes := by
  have htaken : a.nodes.toList.filter (fun n => !a.contains n.id) = [] := by
    rw [List.filter_eq_nil_iff]
    intro n hn
    have hknown : a.contains n.id = true := h.contains_iff.mpr (List.mem_map_of_mem hn)
    rw [hknown]
    exact Bool.false_ne_true
  rw [← Array.toList_inj, h.nodes_merge, htaken, List.append_nil]

/-- **Repetitions add nothing**: one pass keeps none of the edges that come last if their triples
occur among the edges in front of them. -/
theorem kept_append_of_repeats {known : String → Bool} {edges more : List Edge}
    (h : ∀ edge ∈ more, ∃ earlier ∈ edges, earlier.triple = edge.triple) :
    kept known {} (edges ++ more) = kept known {} edges := by
  have hstart : Remembers known {} [] := by
    intro edge _ _
    simp
  -- for an edge in front it makes no difference what comes behind
  have hfront : edges.zipIdx.filter (staysAmong known (edges ++ more))
      = edges.zipIdx.filter (staysAmong known edges) := by
    refine List.filter_congr fun entry hentry => ?_
    have hlt : entry.2 < edges.length := by
      simpa using List.snd_lt_add_of_mem_zipIdx hentry
    rw [staysAmong, staysAmong, List.take_append_of_le_length (Nat.le_of_lt hlt)]
  have hback : (more.zipIdx edges.length).filter (staysAmong known (edges ++ more)) = [] := by
    rw [List.filter_eq_nil_iff]
    intro entry hentry hstays
    obtain ⟨earlier, hearlier, htriple⟩ := h entry.1 (List.fst_mem_of_mem_zipIdx hentry)
    have hle : edges.length ≤ entry.2 := List.le_snd_of_mem_zipIdx hentry
    have hbefore : earlier ∈ (edges ++ more).take entry.2 := by
      rw [List.take_append]
      exact List.mem_append_left _ (by rwa [List.take_of_length_le hle])
    rw [staysAmong, Bool.and_eq_true, List.all_eq_true] at hstays
    exact of_decide_eq_true (hstays.2 earlier hbefore) htriple
  rw [kept_eq_map_filter hstart, kept_eq_map_filter hstart, List.length_nil, List.nil_append,
    List.nil_append, List.zipIdx_append, List.filter_append, Nat.zero_add, hfront, hback,
    List.append_nil]

/-- **Settling takes back what a graph got from itself.** -/
theorem settle_merge_self (h : a.Indexed) : (a.merge a).settle.Same a.settle where
  nodes := nodes_merge_self h
  edges := by
    have hids : (a.merge a).ids = a.ids := by rw [ids, ids, nodes_merge_self h]
    have hknown : (a.merge a).contains = a.contains :=
      funext ((h.merge a).contains_congr h hids)
    rw [← Array.toList_inj, toList_edges_settle, toList_edges_settle, edges_merge, hknown]
    exact kept_append_of_repeats fun edge hedge => ⟨edge, hedge, rfl⟩

end

/-- **The laws of merging.** For graphs that come about by any operations, it does not matter how
merges are bracketed, the empty graph is neutral on both sides, and a graph that is merged with
itself settles to what it would have settled to alone. -/
theorem merge_laws (x y z : List Operation) :
    (((run x).merge (run y)).merge (run z)).Same ((run x).merge ((run y).merge (run z))) ∧
      (empty.merge (run x)).Same (run x) ∧ ((run x).merge empty).Same (run x) ∧
      ((run x).merge (run x)).settle.Same (run x).settle :=
  ⟨merge_assoc (Indexed.run y) (Indexed.run z), empty_merge (Indexed.run x), merge_empty (run x),
    settle_merge_self (Indexed.run x)⟩

end Cartograph.Graph
