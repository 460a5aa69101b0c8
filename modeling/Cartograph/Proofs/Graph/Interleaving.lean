import Cartograph.Proofs.Graph.Runs
import Cartograph.Proofs.Graph.Settling
import Mathlib.Data.List.Basic

/-!
# One check is enough

An edge may be checked when it comes in or only when the edges are settled. As nodes only ever come
in, an edge that has passed its check would pass every later one. So what a graph holds in the end
depends on the nodes and on the edges that came in, each in their order, and not on how nodes and
edges were interleaved nor on when an edge was checked (`settled_alike`).
-/

namespace Cartograph

/-! ## What comes in -/

/-- The nodes that are inserted. The first one with an identifier counts. -/
def Insertion.nodes : Insertion → List Node
  | .node added => [added]
  | .edge _ => []
  | .deferredEdge _ => []
  | .graph other => other.nodes.toList

/-- The edges that come into a graph: an edge that is checked only if it passes. -/
def Insertion.edges (g : Graph) : Insertion → List Edge
  | .node _ => []
  | .edge checked => if g.holdsEnds checked then [checked] else []
  | .deferredEdge deferred => [deferred]
  | .graph other => other.edges.toList

/-- The nodes that are inserted one after the other. -/
def insertedNodes (insertions : List Insertion) : List Node :=
  insertions.flatMap Insertion.nodes

namespace Graph

/-- The edges that come into a graph one after the other. -/
def insertedEdges (g : Graph) : List Insertion → List Edge
  | [] => []
  | insertion :: rest => insertion.edges g ++ insertedEdges (g.insert insertion) rest

/-- The graph that insertions make of the empty one. -/
def build (insertions : List Insertion) : Graph :=
  insertions.foldl insert empty

/-! ## What insertions make of a graph -/

/-- The edges have no part in adding nodes. -/
theorem foldl_addNode_withEdges (nodes : List Node) (g : Graph) (edges : Array Edge) :
    nodes.foldl addNode { g with edges } = { nodes.foldl addNode g with edges } := by
  induction nodes generalizing g with
  | nil => rfl
  | cons node rest ih =>
      have hstep : addNode { g with edges } node = { g.addNode node with edges } := by
        have hsame : contains { g with edges } node.id = g.contains node.id := rfl
        rw [addNode, addNode, hsame]
        split <;> rfl
      rw [List.foldl_cons, List.foldl_cons, hstep, ih]

/-- An insertion adds its nodes one at a time and puts its edges behind those that are there. -/
theorem insert_eq (g : Graph) (insertion : Insertion) :
    g.insert insertion = { insertion.nodes.foldl addNode g with
      edges := g.edges ++ (insertion.edges g).toArray } := by
  cases insertion with
  | node node =>
      have hedges : g.edges = (g.addNode node).edges := (edges_addNode g node).symm
      simp only [insert, Insertion.nodes, Insertion.edges, List.foldl_cons, List.foldl_nil,
        Array.append_empty]
      rw [hedges]
  | edge edge =>
      simp only [insert, Insertion.nodes, Insertion.edges, List.foldl_nil, addEdge]
      split
      · simp [addEdgeDeferred]
      · simp
  | deferredEdge edge => simp [insert, Insertion.nodes, Insertion.edges, addEdgeDeferred]
  | graph other => simp [insert, Insertion.nodes, Insertion.edges, merge_eq]

/-- **What insertions make of a graph**: their nodes are added one at a time, and the edges that
come in stand behind those that were there. -/
theorem foldl_insert (insertions : List Insertion) (g : Graph) :
    insertions.foldl insert g = { (insertedNodes insertions).foldl addNode g with
      edges := g.edges ++ (g.insertedEdges insertions).toArray } := by
  induction insertions generalizing g with
  | nil => simp [insertedNodes, insertedEdges]
  | cons insertion rest ih =>
      have hnodes : insertedNodes (insertion :: rest) = insertion.nodes ++ insertedNodes rest :=
        List.flatMap_cons
      rw [List.foldl_cons, ih, hnodes, List.foldl_append, insertedEdges]
      nth_rewrite 1 [insert_eq]
      rw [foldl_addNode_withEdges, insert_eq]
      simp

theorem nodes_build (insertions : List Insertion) :
    (build insertions).nodes.toList = firsts (insertedNodes insertions) := by
  rw [build, foldl_insert]
  exact nodes_foldl_addNode_empty (insertedNodes insertions)

theorem edges_build (insertions : List Insertion) :
    (build insertions).edges.toList = empty.insertedEdges insertions := by
  rw [build, foldl_insert]
  simp [empty]

theorem Indexed.build (insertions : List Insertion) : (Graph.build insertions).Indexed :=
  List.foldlRecOn insertions Graph.insert Indexed.empty fun _ held insertion _ =>
    held.insert insertion

/-! ## Edges that have passed their check -/

/-- An edge that has both ends keeps them, whatever is inserted. -/
theorem holdsEnds_foldl_insert {g : Graph} (hg : g.Indexed) (insertions : List Insertion)
    {edge : Edge} (h : g.holdsEnds edge = true) :
    (insertions.foldl insert g).holdsEnds edge = true := by
  have hlater : (insertions.foldl insert g).Indexed :=
    List.foldlRecOn insertions insert hg fun _ held insertion _ => held.insert insertion
  have hids : ∀ id ∈ g.ids, id ∈ (insertions.foldl insert g).ids := by
    intro id hid
    rw [ids, foldl_insert, nodes_foldl_addNode, List.map_append]
    exact List.mem_append_left _ hid
  rw [holdsEnds, Bool.and_eq_true, hg.contains_iff, hg.contains_iff] at h
  rw [holdsEnds, Bool.and_eq_true, hlater.contains_iff, hlater.contains_iff]
  exact ⟨hids _ h.1, hids _ h.2⟩

/-- An edge that has passed its check stands behind the edges that came in before it. -/
theorem edges_build_checked (before after : List Insertion) {edge : Edge}
    (h : (build before).holdsEnds edge = true) :
    ∃ rest, (build (before ++ .edge edge :: after)).edges.toList
      = (build before).edges.toList ++ edge :: rest := by
  have hinsert : (build before).insert (.edge edge) = (build before).addEdgeDeferred edge := by
    rw [insert, addEdge, if_pos h]
  refine ⟨((build before).addEdgeDeferred edge).insertedEdges after, ?_⟩
  rw [build, List.foldl_append, List.foldl_cons, ← build, hinsert, foldl_insert]
  simp [addEdgeDeferred]

/-- **One check is enough.** Two sequences that insert the same nodes and the same edges, each in
the same order, lead to the same settled graph, however nodes and edges are interleaved and whether
an edge is checked when it is inserted or not. An edge that has passed its check never lacks an end
later on, so it is dropped only if it repeats an earlier edge. -/
theorem settled_alike {insertions others : List Insertion}
    (hnodes : firsts (insertedNodes insertions) = firsts (insertedNodes others))
    (hedges : empty.insertedEdges insertions = empty.insertedEdges others) :
    (build insertions).settle.nodes = (build others).settle.nodes ∧
      (build insertions).settle.edges = (build others).settle.edges ∧
      ∀ before edge after, insertions = before ++ .edge edge :: after →
        (build before).holdsEnds edge = true →
          (build insertions).holdsEnds edge = true ∧
            (edge ∈ (build insertions).settle.edges ∨
              ∃ earlier ∈ (build before).edges, earlier.triple = edge.triple) := by
  have hsameNodes : (build insertions).nodes = (build others).nodes := by
    rw [← Array.toList_inj, nodes_build, nodes_build, hnodes]
  have hsameEdges : (build insertions).edges = (build others).edges := by
    rw [← Array.toList_inj, edges_build, edges_build, hedges]
  have hknown : ∀ id, (build insertions).contains id = (build others).contains id := by
    apply (Indexed.build insertions).contains_congr (Indexed.build others)
    rw [ids, ids, hsameNodes]
  refine ⟨hsameNodes, settledEdges_congr hknown hsameEdges, ?_⟩
  rintro before edge after rfl hpassed
  have hends : (build (before ++ .edge edge :: after)).holdsEnds edge = true := by
    rw [build, List.foldl_append]
    exact holdsEnds_foldl_insert (Indexed.build before) _ hpassed
  obtain ⟨rest, hrest⟩ := edges_build_checked before after hpassed
  refine ⟨hends, ?_⟩
  simpa only [Array.mem_toList_iff] using mem_edges_settle_or_repeats hrest hends

/-- Two nodes and an edge between them that is checked, then the edge once more. -/
def checkedAtOnce : List Insertion :=
  [.node { id := "a", label := "a", kind := .file }, .node { id := "b", label := "b", kind := .file },
    .edge { source := "a", target := "b", kind := .uses },
    .deferredEdge { source := "a", target := "b", kind := .uses }]

/-- The same nodes and edges. The edge comes first and is not checked; the second node comes in with
another graph, which has a node `a` of its own. -/
def checkedLater : List Insertion :=
  [.deferredEdge { source := "a", target := "b", kind := .uses },
    .node { id := "a", label := "a", kind := .file },
    .graph ((empty.addNode { id := "b", label := "b", kind := .file }).addNode
      { id := "a", label := "other", kind := .file }),
    .edge { source := "a", target := "b", kind := .uses }]

/-- The two sequences lead to the same settled graph. -/
theorem settled_alike_checkedAtOnce :
    firsts (insertedNodes checkedAtOnce) = firsts (insertedNodes checkedLater) ∧
      empty.insertedEdges checkedAtOnce = empty.insertedEdges checkedLater ∧
      (build checkedAtOnce).settle.nodes = (build checkedLater).settle.nodes ∧
      (build checkedAtOnce).settle.edges = (build checkedLater).settle.edges := by
  have hnodes : firsts (insertedNodes checkedAtOnce) = firsts (insertedNodes checkedLater) := by
    cbv
  have hedges : empty.insertedEdges checkedAtOnce = empty.insertedEdges checkedLater := by
    cbv
  have hsame := settled_alike hnodes hedges
  exact ⟨hnodes, hedges, hsame.1, hsame.2.1⟩

end Graph

end Cartograph
