import Cartograph.Proofs.Graph.Index

/-!
# What settling keeps

Settling goes through the edges once and remembers the triples that it has kept. Main statement: it
keeps an edge exactly when both of its ends are nodes and it is the first edge with its triple
(`mem_edges_settle`).
-/

namespace Cartograph.Graph

/-! ## First occurrences -/

/-- The edge stands among the edges, and no edge before it has its triple. -/
def IsFirst (edges : List Edge) (edge : Edge) : Prop :=
  ∃ before after, edges = before ++ edge :: after ∧ ∀ e ∈ before, e.triple ≠ edge.triple

theorem isFirst_iff_find? {edges : List Edge} {edge : Edge} :
    IsFirst edges edge ↔ edges.find? (fun e => e.triple = edge.triple) = some edge := by
  rw [List.find?_eq_some_iff_append]
  simp [IsFirst]

theorem IsFirst.mem {edges : List Edge} {edge : Edge} (h : IsFirst edges edge) : edge ∈ edges := by
  obtain ⟨before, after, rfl, -⟩ := h
  simp

/-- Every triple that occurs has a first edge. -/
theorem exists_isFirst {edges : List Edge} {edge : Edge} (h : edge ∈ edges) :
    ∃ e, IsFirst edges e ∧ e.triple = edge.triple := by
  have hsome : (edges.find? fun e => decide (e.triple = edge.triple)).isSome = true :=
    List.find?_isSome.mpr ⟨edge, h, decide_eq_true rfl⟩
  obtain ⟨e, he⟩ := Option.isSome_iff_exists.mp hsome
  have ht : e.triple = edge.triple := by simpa using List.find?_some he
  exact ⟨e, isFirst_iff_find?.mpr (by rw [ht]; exact he), ht⟩

/-- Edges with one triple have the same ends. -/
theorem holdsEnds_congr (g : Graph) {e f : Edge} (h : e.triple = f.triple) :
    g.holdsEnds e = g.holdsEnds f := by
  simp only [Edge.triple, Prod.mk.injEq] at h
  rw [holdsEnds, holdsEnds, h.1, h.2.1]

/-! ## One pass over the edges -/

/-- The edges of a list that settling keeps when the triples in `seen` have been kept before. -/
def kept (known : String → Bool) (seen : Std.HashSet (String × String × EdgeKind)) :
    List Edge → List Edge
  | [] => []
  | edge :: rest =>
    if known edge.source && known edge.target && !seen.contains edge.triple then
      edge :: kept known (seen.insert edge.triple) rest
    else kept known seen rest

/-- **Edges that lack an end do not matter** to what is kept of the others. -/
theorem kept_filter_holdsEnds (g : Graph) (seen : Std.HashSet (String × String × EdgeKind))
    (edges : List Edge) :
    kept g.contains seen (edges.filter g.holdsEnds) = kept g.contains seen edges := by
  induction edges generalizing seen with
  | nil => rfl
  | cons edge rest ih =>
      by_cases h : g.holdsEnds edge = true
      · rw [List.filter_cons_of_pos h, kept, kept, ih, ih]
      · rw [List.filter_cons_of_neg h, kept, if_neg, ih]
        rw [holdsEnds] at h
        simp [h]

/-- The pass appends what it keeps to what it has kept. -/
theorem foldl_settleStep (known : String → Bool) (edges : List Edge)
    (seen : Std.HashSet (String × String × EdgeKind)) (acc : Array Edge) :
    (edges.foldl (settleStep known) (seen, acc)).2.toList
      = acc.toList ++ kept known seen edges := by
  induction edges generalizing seen acc with
  | nil => simp [kept]
  | cons edge rest ih =>
      rw [List.foldl_cons, settleStep, kept]
      by_cases h : (known edge.source && known edge.target && !seen.contains edge.triple) = true
      · rw [if_pos h, if_pos h, ih, Array.toList_push, List.append_assoc, List.singleton_append]
      · rw [if_neg h, if_neg h, ih]

theorem toList_edges_settle (g : Graph) :
    g.settle.edges.toList = kept g.contains {} g.edges.toList := by
  rw [settle, settledEdges, ← Array.foldl_toList, foldl_settleStep]
  rfl

/-! ## Which edges are kept -/

/-- **What one pass keeps**: the edges with both ends whose triple has not been kept before the
pass, and of several with one triple the first. -/
theorem mem_kept {known : String → Bool} {seen : Std.HashSet (String × String × EdgeKind)}
    {edges : List Edge} {edge : Edge} :
    edge ∈ kept known seen edges ↔
      (known edge.source = true ∧ known edge.target = true) ∧ edge.triple ∉ seen ∧
        IsFirst edges edge := by
  rw [isFirst_iff_find?]
  induction edges generalizing seen with
  | nil => simp [kept]
  | cons first rest ih =>
      -- an edge with the triple of the first one is kept here or never
      by_cases ht : first.triple = edge.triple
      · have hends : first.source = edge.source ∧ first.target = edge.target := by
          simp only [Edge.triple, Prod.mk.injEq] at ht
          exact ⟨ht.1, ht.2.1⟩
        rw [List.find?_cons_of_pos (by simpa using ht), kept, hends.1, hends.2, ht]
        split
        · rename_i h
          simp only [Bool.and_eq_true, Bool.not_eq_true', Std.HashSet.contains_eq_false_iff_not_mem]
            at h
          rw [List.mem_cons, ih, Std.HashSet.mem_insert]
          simp [h, eq_comm]
        · rename_i h
          simp only [Bool.and_eq_true, Bool.not_eq_true', Std.HashSet.contains_eq_false_iff_not_mem]
            at h
          rw [ih]
          constructor
          · rintro ⟨hk, hs, -⟩
            exact absurd ⟨hk, hs⟩ h
          · rintro ⟨hk, hs, -⟩
            exact absurd ⟨hk, hs⟩ h
      · have hne : edge ≠ first := fun h => ht (congrArg Edge.triple h.symm)
        rw [List.find?_cons_of_neg (by simpa using ht), kept]
        split
        · rw [List.mem_cons, ih, Std.HashSet.mem_insert]
          simp [hne, ht]
        · rw [ih]

/-- No triple is kept twice. -/
theorem nodup_triples_kept (known : String → Bool)
    (seen : Std.HashSet (String × String × EdgeKind)) (edges : List Edge) :
    ((kept known seen edges).map Edge.triple).Nodup := by
  induction edges generalizing seen with
  | nil => exact List.nodup_nil
  | cons edge rest ih =>
      rw [kept]
      split
      · rw [List.map_cons, List.nodup_cons]
        refine ⟨fun hm => ?_, ih _⟩
        -- what is kept further on has a triple that has not been seen, and that of `edge` has
        obtain ⟨e, he, ht⟩ := List.mem_map.mp hm
        exact (mem_kept.mp he).2.1 (by rw [ht]; exact Std.HashSet.mem_insert_self)
      · exact ih seen

/-! ## Settled graphs -/

/-- **Settling is exact.** It keeps an edge exactly when both of its ends are nodes and no earlier
edge has its triple. -/
theorem mem_edges_settle {g : Graph} {edge : Edge} :
    edge ∈ g.settle.edges.toList ↔ g.holdsEnds edge = true ∧ IsFirst g.edges.toList edge := by
  rw [toList_edges_settle, mem_kept, holdsEnds, Bool.and_eq_true]
  simp

/-- Settling keeps the triples of the edges that have both ends. -/
theorem mem_triples_settle {g : Graph} {triple : String × String × EdgeKind} :
    triple ∈ g.settle.edges.toList.map Edge.triple ↔
      ∃ edge ∈ g.edges.toList, edge.triple = triple ∧ g.holdsEnds edge = true := by
  rw [List.mem_map]
  constructor
  · rintro ⟨edge, hedge, rfl⟩
    obtain ⟨hends, hfirst⟩ := mem_edges_settle.mp hedge
    exact ⟨edge, hfirst.mem, rfl, hends⟩
  · rintro ⟨edge, hedge, rfl, hends⟩
    -- the first edge with the triple has the same ends, and it is the one that is kept
    obtain ⟨first, hfirst, htriple⟩ := exists_isFirst hedge
    have hfirstEnds : g.holdsEnds first = true := (holdsEnds_congr g htriple).trans hends
    exact ⟨first, mem_edges_settle.mpr ⟨hfirstEnds, hfirst⟩, htriple⟩

/-- Settling asks a graph for nothing but its edges and what it knows. -/
theorem settledEdges_congr {g h : Graph} (hknown : ∀ id, g.contains id = h.contains id)
    (hedges : g.edges = h.edges) : g.settledEdges = h.settledEdges := by
  have hcontains : g.contains = h.contains := funext hknown
  rw [settledEdges, settledEdges, hcontains, hedges]

/-- **What settling drops for**: an edge with both ends is dropped only if an earlier edge has its
triple. -/
theorem mem_edges_settle_or_repeats {g : Graph} {edge : Edge} {before after : List Edge}
    (hedges : g.edges.toList = before ++ edge :: after) (hends : g.holdsEnds edge = true) :
    edge ∈ g.settle.edges.toList ∨ ∃ earlier ∈ before, earlier.triple = edge.triple := by
  by_cases hearlier : ∃ earlier ∈ before, earlier.triple = edge.triple
  · exact Or.inr hearlier
  · have hfirst : ∀ e ∈ before, e.triple ≠ edge.triple :=
      fun e he htriple => hearlier ⟨e, he, htriple⟩
    exact Or.inl (mem_edges_settle.mpr ⟨hends, before, after, hedges, hfirst⟩)

theorem nodup_triples_settle (g : Graph) : (g.settle.edges.toList.map Edge.triple).Nodup := by
  rw [toList_edges_settle]
  exact nodup_triples_kept _ _ _

end Cartograph.Graph
