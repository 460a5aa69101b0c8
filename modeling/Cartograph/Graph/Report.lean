import Cartograph.Graph.Basic

/-!
# Reports

A report is a graph made ready to be shown: every node with its degree, the legend, and how many
nodes and edges of each kind there are.
-/

namespace Cartograph

/-- A node with the number of edge ends that touch it. -/
structure RatedNode where
  node : Node
  degree : Nat
  deriving BEq, Inhabited, Repr

/-- How many nodes and how many edges there are. -/
structure Totals where
  nodes : Nat
  edges : Nat
  deriving BEq, DecidableEq, Inhabited, Repr

/-- A graph made ready to be shown. Tables by kind are in the order of the legend. -/
structure Report where
  nodes : List RatedNode
  edges : List Edge
  nodeColors : List (NodeKind × String)
  edgeColors : List (EdgeKind × String)
  nodeCounts : List (NodeKind × Nat)
  edgeCounts : List (EdgeKind × Nat)
  totals : Totals
  /-- The name of the directory that was looked at. -/
  repository : Option String := none
  deriving BEq, Inhabited, Repr

/-! ## Counting -/

/-- One more for `id`. -/
def countUp (counts : Std.HashMap String Nat) (id : String) : Std.HashMap String Nat :=
  counts.insert id (counts.getD id 0 + 1)

/-- For every identifier the number of edge ends at it; an edge from a node to itself has two. -/
def Graph.degrees (g : Graph) : Std.HashMap String Nat :=
  g.edges.foldl (fun counts edge => countUp (countUp counts edge.source) edge.target) {}

/-- For each of the `kinds` that occurs in `found`, how often it does. -/
def tally {κ : Type} [DecidableEq κ] (kinds found : List κ) : List (κ × Nat) :=
  (kinds.map fun kind => (kind, found.count kind)).filter fun entry => entry.2 != 0

/-- The report on a graph. -/
def Graph.report (g : Graph) : Report :=
  let degrees := g.degrees
  { nodes := g.nodes.toList.map fun node => { node, degree := degrees.getD node.id 0 }
    edges := g.edges.toList
    nodeColors := NodeKind.all.map fun kind => (kind, kind.color)
    edgeColors := EdgeKind.all.map fun kind => (kind, kind.color)
    nodeCounts := tally NodeKind.all (g.nodes.toList.map (·.kind))
    edgeCounts := tally EdgeKind.all (g.edges.toList.map (·.kind))
    totals := { nodes := g.nodes.size, edges := g.edges.size } }

end Cartograph
