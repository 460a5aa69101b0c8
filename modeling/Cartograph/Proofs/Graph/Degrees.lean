import Cartograph.Graph.Report

/-!
# Degrees

The degree of a node counts the ends of edges that touch it. Main statement: it is the number of
edges that leave the node and of edges that lead to it (`getD_degrees`).
-/

namespace Cartograph

@[simp] theorem getD_countUp (counts : Std.HashMap String Nat) (counted id : String) :
    (countUp counts counted).getD id 0
      = counts.getD id 0 + if counted = id then 1 else 0 := by
  rw [countUp, Std.HashMap.getD_insert]
  by_cases h : counted = id
  · subst h
    simp
  · simp [h]

/-- Counting goes on from what has been counted before. -/
theorem getD_foldl_countUp (edges : List Edge) (counts : Std.HashMap String Nat) (id : String) :
    (edges.foldl (fun counts edge => countUp (countUp counts edge.source) edge.target)
        counts).getD id 0
      = counts.getD id 0
        + ((edges.map Edge.source).count id + (edges.map Edge.target).count id) := by
  induction edges generalizing counts with
  | nil => rfl
  | cons edge rest ih =>
      rw [List.foldl_cons, ih, getD_countUp, getD_countUp, List.map_cons, List.map_cons,
        List.count_cons, List.count_cons]
      simp only [beq_iff_eq]
      omega

namespace Graph

variable {g : Graph} {id : String}

/-- **The degree of a node** is the number of edges that leave it and of edges that lead to it. -/
theorem getD_degrees (g : Graph) (id : String) : g.degrees.getD id 0
    = (g.edges.toList.map Edge.source).count id + (g.edges.toList.map Edge.target).count id := by
  rw [degrees, ← Array.foldl_toList, getD_foldl_countUp, Std.HashMap.getD_empty, Nat.zero_add]

/-- What no edge touches has no degree. -/
theorem getD_degrees_eq_zero (h : ∀ edge ∈ g.edges.toList, edge.source ≠ id ∧ edge.target ≠ id) :
    g.degrees.getD id 0 = 0 := by
  rw [getD_degrees, List.count_eq_zero_of_not_mem, List.count_eq_zero_of_not_mem]
  · intro hmem
    obtain ⟨edge, hedge, hid⟩ := List.mem_map.mp hmem
    exact (h edge hedge).2 hid
  · intro hmem
    obtain ⟨edge, hedge, hid⟩ := List.mem_map.mp hmem
    exact (h edge hedge).1 hid

/-- Every node of a report has the degree that the edges of the report give it. -/
theorem degree_of_mem_report {rated : RatedNode} (h : rated ∈ g.report.nodes) :
    rated.degree = g.degrees.getD rated.node.id 0 := by
  obtain ⟨node, -, rfl⟩ := List.mem_map.mp h
  rfl

end Graph

end Cartograph
