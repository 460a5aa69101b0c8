import Std.Data.HashMap
import Std.Data.HashSet
import Cartograph.Graph.Entity

/-!
# Code graphs

A graph holds nodes and edges in the order in which they came. The first node with an identifier
stays and later ones with the same identifier are passed over. An edge may be added although its
ends are not there yet; `settle` at the end drops every edge that still lacks an end and every edge
that repeats an earlier one.

The index leads from an identifier to the position of its node.
-/

namespace Cartograph

/-- Nodes and edges, with an index of the nodes by identifier. -/
structure Graph where
  nodes : Array Node := #[]
  index : Std.HashMap String Nat := {}
  edges : Array Edge := #[]
  deriving Inhabited

namespace Graph

/-- The graph without nodes and edges. -/
def empty : Graph := {}

/-! ## Looking -/

/-- Some node has this identifier. -/
def contains (g : Graph) (id : String) : Bool :=
  g.index.contains id

/-- The node with this identifier. -/
def node? (g : Graph) (id : String) : Option Node :=
  match g.index[id]? with
  | some i => g.nodes[i]?
  | none => none

/-- Both ends of the edge are nodes. -/
def holdsEnds (g : Graph) (edge : Edge) : Bool :=
  g.contains edge.source && g.contains edge.target

/-! ## Adding -/

/-- Adds a node unless its identifier is taken. -/
def addNode (g : Graph) (node : Node) : Graph :=
  if g.contains node.id then g
  else { g with nodes := g.nodes.push node, index := g.index.insert node.id g.nodes.size }

/-- Adds an edge whatever its ends are. -/
def addEdgeDeferred (g : Graph) (edge : Edge) : Graph :=
  { g with edges := g.edges.push edge }

/-- Adds an edge if both of its ends are nodes. -/
def addEdge (g : Graph) (edge : Edge) : Graph :=
  if g.holdsEnds edge then g.addEdgeDeferred edge else g

/-- Adds the nodes of another graph, then its edges. -/
def merge (g other : Graph) : Graph :=
  let joined := other.nodes.foldl addNode g
  { joined with edges := joined.edges ++ other.edges }

/-! ## Settling -/

/-- Keeps an edge if it has both ends and repeats none of `seen`. -/
def settleStep (known : String → Bool)
    (state : Std.HashSet (String × String × EdgeKind) × Array Edge) (edge : Edge) :
    Std.HashSet (String × String × EdgeKind) × Array Edge :=
  if known edge.source && known edge.target && !state.1.contains edge.triple then
    (state.1.insert edge.triple, state.2.push edge)
  else state

/-- The edges that have both ends and repeat no earlier one. -/
def settledEdges (g : Graph) : Array Edge :=
  (g.edges.foldl (settleStep g.contains) ({}, #[])).2

/-- Drops the edges that lack an end and those that repeat an earlier one. -/
def settle (g : Graph) : Graph :=
  { g with edges := g.settledEdges }

/-- How many edges settling drops. -/
def unsettledCount (g : Graph) : Nat :=
  g.edges.size - g.settledEdges.size

/-! ## Small laws -/

theorem edges_addNode (g : Graph) (node : Node) : (g.addNode node).edges = g.edges := by
  unfold addNode
  split <;> rfl

theorem nodes_addNode (g : Graph) (node : Node) :
    (g.addNode node).nodes = if g.contains node.id then g.nodes else g.nodes.push node := by
  unfold addNode
  split <;> rfl

theorem contains_addNode (g : Graph) (node : Node) (id : String) :
    (g.addNode node).contains id = (g.contains id || node.id == id) := by
  unfold addNode
  split
  · rename_i h
    by_cases heq : node.id = id
    · subst heq
      simp [h]
    · simp [heq]
  · simp [contains, Bool.or_comm]

@[simp] theorem nodes_addEdgeDeferred (g : Graph) (edge : Edge) :
    (g.addEdgeDeferred edge).nodes = g.nodes := rfl

@[simp] theorem nodes_addEdge (g : Graph) (edge : Edge) : (g.addEdge edge).nodes = g.nodes := by
  unfold addEdge
  split <;> rfl

@[simp] theorem nodes_settle (g : Graph) : g.settle.nodes = g.nodes := rfl

end Graph

end Cartograph
