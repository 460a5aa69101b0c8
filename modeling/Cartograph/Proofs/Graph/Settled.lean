import Cartograph.Proofs.Graph.Runs
import Cartograph.Proofs.Graph.Settling

/-!
# Settled edges in their order

Settling remembers the triples that it has kept and never looks back at the edges. What it leaves is
said here without that memory, by the positions of the edges: an edge stays if both of its ends are
nodes and its triple does not occur at an earlier position. Main statement: settling leaves the
edges that stay, in their order and with all that is known of them, it tells how many it drops, and
to settle once more changes nothing (`settling_exact`).
-/

namespace Cartograph.Graph

/-! ## Positions -/

/-- The edge at a position among `edges` has both ends, and its triple does not occur before. -/
def staysAmong (known : String → Bool) (edges : List Edge) (entry : Edge × Nat) : Bool :=
  known entry.1.source && known entry.1.target &&
    (edges.take entry.2).all fun earlier => decide (earlier.triple ≠ entry.1.triple)

/-- Of the triples of edges with both ends, `seen` has those that occur among the edges `before`. -/
def Remembers (known : String → Bool) (seen : Std.HashSet (String × String × EdgeKind))
    (before : List Edge) : Prop :=
  ∀ edge : Edge, known edge.source = true → known edge.target = true →
    (edge.triple ∈ seen ↔ ∃ earlier ∈ before, earlier.triple = edge.triple)

section

variable {known : String → Bool} {seen : Std.HashSet (String × String × EdgeKind)}
  {before : List Edge} {edge : Edge}

/-- To ask what has been seen is to ask what stands at earlier positions. -/
theorem Remembers.staysAmong_eq (h : Remembers known seen before) (rest : List Edge) :
    staysAmong known (before ++ edge :: rest) (edge, before.length)
      = (known edge.source && known edge.target && !seen.contains edge.triple) := by
  rw [staysAmong, List.take_left]
  by_cases hends : (known edge.source && known edge.target) = true
  · have hboth := Bool.and_eq_true_iff.mp hends
    have hseen := h edge hboth.1 hboth.2
    rw [hends, Bool.true_and, Bool.true_and, Bool.eq_iff_iff, List.all_eq_true, Bool.not_eq_true',
      Std.HashSet.contains_eq_false_iff_not_mem, hseen]
    simp
  · rw [Bool.not_eq_true] at hends
    rw [hends, Bool.false_and, Bool.false_and]

/-- An edge that is kept is remembered. -/
theorem Remembers.keep (h : Remembers known seen before) :
    Remembers known (seen.insert edge.triple) (before ++ [edge]) := by
  intro e hsource htarget
  rw [Std.HashSet.mem_insert, h e hsource htarget, beq_iff_eq]
  simp only [List.mem_append, List.mem_singleton, or_and_right, exists_or, exists_eq_left]
  exact or_comm

/-- An edge that is passed over need not be remembered: it lacks an end, or its triple is known. -/
theorem Remembers.pass (h : Remembers known seen before)
    (hpassed : (known edge.source && known edge.target && !seen.contains edge.triple) = false) :
    Remembers known seen (before ++ [edge]) := by
  intro e hsource htarget
  rw [h e hsource htarget]
  constructor
  · rintro ⟨earlier, hearlier, htriple⟩
    exact ⟨earlier, List.mem_append_left _ hearlier, htriple⟩
  · rintro ⟨earlier, hearlier, htriple⟩
    rcases List.mem_append.mp hearlier with hold | hnew
    · exact ⟨earlier, hold, htriple⟩
    · -- the edge itself has the triple, so it has both ends, and its triple has been seen
      obtain rfl := List.mem_singleton.mp hnew
      have hends : earlier.source = e.source ∧ earlier.target = e.target := by
        simp only [Edge.triple, Prod.mk.injEq] at htriple
        exact ⟨htriple.1, htriple.2.1⟩
      rw [hends.1, hends.2, hsource, htarget] at hpassed
      have hseen : earlier.triple ∈ seen := by simpa using hpassed
      exact (h e hsource htarget).mp (htriple ▸ hseen)

/-- **One pass keeps what stays**, `before` being the edges that it has gone through. -/
theorem kept_eq_map_filter {rest : List Edge} (h : Remembers known seen before) :
    kept known seen rest
      = ((rest.zipIdx before.length).filter (staysAmong known (before ++ rest))).map Prod.fst := by
  induction rest generalizing before seen with
  | nil => rfl
  | cons edge rest ih =>
      have hall : before ++ edge :: rest = (before ++ [edge]) ++ rest := by
        rw [List.append_assoc, List.singleton_append]
      have hlength : before.length + 1 = (before ++ [edge]).length := by
        rw [List.length_append, List.length_singleton]
      -- the edge goes over to those before it, and all edges together stay what they are
      rw [kept, List.zipIdx_cons, List.filter_cons, h.staysAmong_eq rest]
      split
      · rw [List.map_cons, hall, hlength, ih h.keep]
      · rename_i hpassed
        rw [hall, hlength, ih (h.pass (Bool.eq_false_iff.mpr hpassed))]

end

/-- A pass leaves edges out and does nothing else. -/
theorem kept_sublist (known : String → Bool) (seen : Std.HashSet (String × String × EdgeKind))
    (edges : List Edge) : (kept known seen edges).Sublist edges := by
  induction edges generalizing seen with
  | nil => exact List.Sublist.slnil
  | cons edge rest ih =>
      rw [kept]
      split
      · exact (ih _).cons_cons edge
      · exact (ih seen).cons edge

/-- A pass keeps edges that have both ends and triples of their own. -/
theorem kept_eq_self {known : String → Bool} {seen : Std.HashSet (String × String × EdgeKind)}
    {edges : List Edge}
    (hends : ∀ edge ∈ edges, known edge.source = true ∧ known edge.target = true)
    (hnew : ∀ edge ∈ edges, edge.triple ∉ seen) (hnodup : (edges.map Edge.triple).Nodup) :
    kept known seen edges = edges := by
  induction edges generalizing seen with
  | nil => rfl
  | cons edge rest ih =>
      rw [List.forall_mem_cons] at hends hnew
      rw [List.map_cons, List.nodup_cons] at hnodup
      have hlater : ∀ e ∈ rest, e.triple ∉ seen.insert edge.triple := by
        intro e he hmem
        rcases Std.HashSet.mem_insert.mp hmem with hsame | hseen
        · exact hnodup.1 (beq_iff_eq.mp hsame ▸ List.mem_map_of_mem he)
        · exact hnew.2 e he hseen
      rw [kept, if_pos (by simp [hends.1, hnew.1]), ih hends.2 hlater hnodup.2]

/-! ## Settled graphs -/

/-- The edge at a position of the graph has both ends among the nodes, and its triple does not occur
at an earlier position. -/
def Stays (g : Graph) (entry : Edge × Nat) : Prop :=
  entry.1.source ∈ g.ids ∧ entry.1.target ∈ g.ids ∧
    ∀ earlier ∈ g.edges.toList.take entry.2, earlier.triple ≠ entry.1.triple

instance (g : Graph) : DecidablePred g.Stays :=
  fun _ => inferInstanceAs (Decidable (_ ∧ _ ∧ _))

variable {g : Graph}

/-- What settling leaves is what stays. -/
theorem toList_edges_settle_eq (h : g.Indexed) : g.settle.edges.toList
    = (g.edges.toList.zipIdx.filter fun entry => g.Stays entry).map Prod.fst := by
  have hstart : Remembers g.contains {} [] := by
    intro edge _ _
    simp
  rw [toList_edges_settle, kept_eq_map_filter hstart, List.length_nil, List.nil_append]
  congr 2
  funext entry
  rw [Bool.eq_iff_iff, decide_eq_true_iff, staysAmong, Bool.and_eq_true, Bool.and_eq_true,
    h.contains_iff, h.contains_iff, List.all_eq_true, Stays, and_assoc]
  simp only [decide_eq_true_iff]

/-- Settling makes the edges no more. -/
theorem size_edges_settle_le (g : Graph) : g.settle.edges.size ≤ g.edges.size := by
  rw [← Array.length_toList, ← Array.length_toList, toList_edges_settle]
  exact (kept_sublist _ _ _).length_le

/-- **Settling once more changes nothing.** -/
theorem settle_settle (g : Graph) : g.settle.settle = g.settle := by
  have hends : ∀ edge ∈ g.settle.edges.toList,
      g.settle.contains edge.source = true ∧ g.settle.contains edge.target = true := by
    intro edge hedge
    have hheld : g.holdsEnds edge = true := (mem_edges_settle.mp hedge).1
    rwa [holdsEnds, Bool.and_eq_true] at hheld
  have hedges : g.settle.settle.edges.toList = g.settle.edges.toList := by
    rw [toList_edges_settle g.settle]
    exact kept_eq_self hends (fun _ _ => by simp) (nodup_triples_settle g)
  show { g.settle with edges := g.settle.settle.edges } = g.settle
  rw [Array.toList_inj.mp hedges]

/-- **Settling is exact**: it leaves the edges whose ends are both nodes and whose triple does not
occur at an earlier position, in their order and as they are, and it leaves the nodes alone. It
tells how many edges it drops, and to settle once more drops none and changes nothing. The index of
every graph that comes about by operations is in step with its nodes (`Indexed.run`). -/
theorem settling_exact (h : g.Indexed) :
    g.settle.edges.toList
        = (g.edges.toList.zipIdx.filter fun entry => g.Stays entry).map Prod.fst ∧
      g.unsettledCount + g.settle.edges.size = g.edges.size ∧
      g.settle.nodes = g.nodes ∧ g.settle.index = g.index ∧
      g.settle.unsettledCount = 0 ∧ g.settle.settle = g.settle := by
  have hcount : g.unsettledCount + g.settle.edges.size = g.edges.size :=
    Nat.sub_add_cancel (size_edges_settle_le g)
  have hagain : g.settle.unsettledCount = 0 := by
    have hsame : g.settle.settledEdges = g.settle.edges := congrArg Graph.edges (settle_settle g)
    rw [unsettledCount, hsame, Nat.sub_self]
  exact ⟨toList_edges_settle_eq h, hcount, rfl, rfl, hagain, settle_settle g⟩

/-- Two nodes with an edge that is repeated, an edge of another kind, an edge into nothing that is
repeated as well, and an edge from a node to itself. -/
def repeatedEdges : List Edge :=
  [{ source := "a", target := "b", kind := .imports },
    { source := "a", target := "b", kind := .imports, metadata := [("again", .bool true)] },
    { source := "a", target := "b", kind := .uses },
    { source := "a", target := "module:c", kind := .imports },
    { source := "a", target := "module:c", kind := .imports },
    Edge.marker "a" .dbRead]

/-- The operations that lead to the nodes and edges. -/
def repeating : List Operation :=
  .insert (.node { id := "a", label := "a", kind := .file }) ::
    .insert (.node { id := "b", label := "b", kind := .file }) ::
      repeatedEdges.map fun edge => .insert (.deferredEdge edge)

/-- Three of the six edges stay. -/
theorem settling_exact_repeatedEdges :
    (run repeating).Indexed ∧
      (run repeating).settle.edges.toList =
        [{ source := "a", target := "b", kind := .imports },
          { source := "a", target := "b", kind := .uses }, Edge.marker "a" .dbRead] ∧
      (run repeating).unsettledCount + 3 = 6 ∧ (run repeating).settle.unsettledCount = 0 := by
  have hindexed : (run repeating).Indexed := Indexed.run repeating
  obtain ⟨hedges, hcount, -, -, hagain, -⟩ := settling_exact hindexed
  have hids : (run repeating).ids = ["a", "b"] := by cbv
  have hall : (run repeating).edges.toList = repeatedEdges := by cbv
  simp only [Stays, hids, hall] at hedges
  have hsize : (run repeating).settle.edges.size = 3 := by
    rw [← Array.length_toList, hedges]
    rfl
  have hsix : (run repeating).edges.size = 6 := by
    rw [← Array.length_toList, hall]
    rfl
  rw [hsize, hsix] at hcount
  exact ⟨hindexed, hedges, hcount, hagain⟩

end Cartograph.Graph
