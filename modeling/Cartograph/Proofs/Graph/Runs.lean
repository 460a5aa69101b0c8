import Cartograph.Imports.Resolver
import Cartograph.Proofs.Graph.Firsts
import Cartograph.Proofs.Graph.Merging

/-!
# Runs of operations

A graph comes about by operations, one after the other: nodes, edges and whole graphs are inserted,
imports are redirected and edges are settled. Every operation keeps the index in step with the nodes
and leaves the nodes that are there where they are. Main statement: what a look-up has found it
finds ever after (`found_stays_found`).
-/

namespace Cartograph

/-! ## Operations -/

/-- What is inserted into a graph. -/
inductive Insertion where
  | node (node : Node)
  /-- An edge that is refused unless both of its ends are there. -/
  | edge (edge : Edge)
  /-- An edge that is taken whatever its ends are. -/
  | deferredEdge (edge : Edge)
  /-- The nodes and edges of another graph, however that one came about. -/
  | graph (other : Graph)

/-- What is done to a graph. -/
inductive Operation where
  | insert (insertion : Insertion)
  | resolveImports (resolver : Resolver)
  | settle

namespace Graph

/-- The graph with something inserted. -/
def insert (g : Graph) : Insertion → Graph
  | .node node => g.addNode node
  | .edge edge => g.addEdge edge
  | .deferredEdge edge => g.addEdgeDeferred edge
  | .graph other => g.merge other

/-- The graph after an operation. -/
def operate (g : Graph) : Operation → Graph
  | .insert insertion => g.insert insertion
  | .resolveImports resolver => g.resolveImports resolver
  | .settle => g.settle

/-- The graph that operations make of the empty one. -/
def run (operations : List Operation) : Graph :=
  operations.foldl operate empty

theorem run_append (before after : List Operation) :
    run (before ++ after) = after.foldl operate (run before) :=
  List.foldl_append

/-! ## The index keeps in step -/

namespace Indexed

variable {g : Graph}

theorem insert (h : g.Indexed) (insertion : Insertion) : (g.insert insertion).Indexed := by
  cases insertion with
  | node node => exact h.addNode node
  | edge edge =>
      rw [Graph.insert, Graph.addEdge]
      split
      · exact h.addEdgeDeferred edge
      · exact h
  | deferredEdge edge => exact h.addEdgeDeferred edge
  | graph other => exact h.merge other

theorem operate (h : g.Indexed) (operation : Operation) : (g.operate operation).Indexed := by
  cases operation with
  | insert insertion => exact h.insert insertion
  | resolveImports resolver => exact h.withEdges (g.edges.map resolver.redirect)
  | settle => exact h.withEdges g.settledEdges

theorem run (operations : List Operation) : (Graph.run operations).Indexed :=
  List.foldlRecOn operations Graph.operate Indexed.empty fun _ held operation _ =>
    held.operate operation

end Indexed

/-! ## Nodes stay where they are -/

/-- New nodes come in behind all others. -/
theorem nodes_prefix_foldl_addNode (nodes : List Node) (g : Graph) :
    g.nodes.toList <+: (nodes.foldl addNode g).nodes.toList := by
  rw [nodes_foldl_addNode]
  exact List.prefix_append g.nodes.toList _

theorem nodes_prefix_insert (g : Graph) (insertion : Insertion) :
    g.nodes.toList <+: (g.insert insertion).nodes.toList := by
  cases insertion with
  | node node => exact nodes_prefix_foldl_addNode [node] g
  | edge edge => simp only [insert, nodes_addEdge, List.prefix_rfl]
  | deferredEdge edge => exact List.prefix_rfl
  | graph other =>
      rw [insert, merge_eq]
      exact nodes_prefix_foldl_addNode other.nodes.toList g

/-- An operation leaves the nodes where they are. -/
theorem nodes_prefix_operate (g : Graph) (operation : Operation) :
    g.nodes.toList <+: (g.operate operation).nodes.toList := by
  cases operation with
  | insert insertion => exact nodes_prefix_insert g insertion
  | resolveImports resolver => exact List.prefix_rfl
  | settle => exact List.prefix_rfl

/-- However many operations follow, the nodes stay where they are. -/
theorem nodes_prefix_foldl_operate (operations : List Operation) (g : Graph) :
    g.nodes.toList <+: (operations.foldl operate g).nodes.toList := by
  induction operations generalizing g with
  | nil => exact List.prefix_rfl
  | cons operation rest ih =>
      have hfirst : g.nodes.toList <+: (g.operate operation).nodes.toList :=
        nodes_prefix_operate g operation
      exact hfirst.trans (ih (g.operate operation))

/-- A look-up finds in a longer list of nodes what it finds in the shorter one. -/
theorem Indexed.node?_of_prefix {g later : Graph} (hg : g.Indexed) (hlater : later.Indexed)
    (h : g.nodes.toList <+: later.nodes.toList) {id : String} {n : Node}
    (hn : g.node? id = some n) : later.node? id = some n := by
  obtain ⟨hmem, hid⟩ := hg.node?_eq_some_iff.mp hn
  have hlist : n ∈ later.nodes.toList := h.subset (Array.mem_toList_iff.mpr hmem)
  exact hlater.node?_eq_some_iff.mpr ⟨Array.mem_toList_iff.mp hlist, hid⟩

/-- **What has been found is found ever after.** After any operations the index leads from an
identifier to a position exactly when the node there has the identifier, and no identifier stands
twice. Further operations leave the nodes where they are, and a look-up that has found a node finds
the same node again. -/
theorem found_stays_found (before after : List Operation) :
    (∀ (id : String) (i : Nat), (run before).index[id]? = some i ↔
        ∃ n : Node, (run before).nodes[i]? = some n ∧ n.id = id) ∧
      (run before).ids.Nodup ∧
      (run before).nodes.toList <+: (run (before ++ after)).nodes.toList ∧
      ∀ (id : String) (n : Node), (run before).node? id = some n →
        n.id = id ∧ (run (before ++ after)).node? id = some n := by
  have hbefore : (run before).Indexed := Indexed.run before
  have hafter : (run (before ++ after)).Indexed := Indexed.run (before ++ after)
  have hnodes : (run before).nodes.toList <+: (run (before ++ after)).nodes.toList := by
    rw [run_append]
    exact nodes_prefix_foldl_operate after (run before)
  refine ⟨fun id i => hbefore.getElem?_index_iff, hbefore.nodup_ids, hnodes, fun id n hn => ?_⟩
  obtain ⟨-, hid⟩ := hbefore.node?_eq_some_iff.mp hn
  exact ⟨hid, hbefore.node?_of_prefix hafter hnodes hn⟩

end Graph

end Cartograph
