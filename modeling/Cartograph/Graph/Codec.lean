import Cartograph.Graph.Report

/-!
# Graphs as JSON

How nodes, edges and reports are written as JSON values and read back. A reader passes over members
that it does not know. A node or an edge may also be given as an array of exactly its fields.
Reading what was written gives the same node, edge or report.
-/

namespace Cartograph

open Json

/-! ## Kinds -/

/-- Reads a name, or an object whose one member has that name and an empty value. -/
def kindOf? {κ : Type} (ofName? : String → Option κ) (isVoid : Json → Bool) : Json → Option κ
  | .str name => ofName? name
  | .obj [(name, value)] => if isVoid value then ofName? name else none
  | _ => none

/-- Nothing but `null` is empty. -/
def isNull : Json → Bool
  | .null => true
  | _ => false

/-- Both `null` and an object without members are empty. -/
def isNullOrBare : Json → Bool
  | .null => true
  | .obj [] => true
  | _ => false

/-- A number that fits an unsigned 32-bit word. -/
def word32? (value : Json) : Option UInt32 := do
  let n ← value.nat?
  if n < UInt32.size then some (UInt32.ofNat n) else none

/-! ## Nodes -/

/-- The members that a node is written as. -/
def Node.members (node : Node) : List (String × Json) :=
  [("id", .str node.id), ("label", .str node.label), ("type", .str node.kind.name),
    ("file_path", .str node.path), ("line_number", .int node.line.toNat),
    ("metadata", .obj node.metadata)]

/-- A node as JSON. -/
def Node.toJson (node : Node) : Json :=
  .obj node.members

/-- A node from the values of its fields. -/
def Node.ofFields? (isVoid : Json → Bool) (id label kind path line metadata : Json) :
    Option Node := do
  return {
    id := ← id.string?
    label := ← label.string?
    kind := ← kindOf? NodeKind.ofName? isVoid kind
    path := ← path.string?
    line := ← word32? line
    metadata := ← metadata.members? }

/-- A node from members, by name. -/
def Node.ofMembers? (isVoid : Json → Bool) (members : List (String × Json)) : Option Node := do
  Node.ofFields? isVoid (← member? "id" members) (← member? "label" members)
    (← member? "type" members) (← member? "file_path" members) (← member? "line_number" members)
    (← member? "metadata" members)

/-- A node from JSON. -/
def Node.ofJson? : Json → Option Node
  | .obj members => Node.ofMembers? isNull members
  | .arr [id, label, kind, path, line, metadata] =>
    Node.ofFields? isNull id label kind path line metadata
  | _ => none

/-! ## Edges -/

/-- An edge as JSON. -/
def Edge.toJson (edge : Edge) : Json :=
  .obj [("source", .str edge.source), ("target", .str edge.target),
    ("type", .str edge.kind.name), ("metadata", .obj edge.metadata)]

/-- An edge from the values of its fields. -/
def Edge.ofFields? (source target kind metadata : Json) : Option Edge := do
  return {
    source := ← source.string?
    target := ← target.string?
    kind := ← kindOf? EdgeKind.ofName? isNull kind
    metadata := ← metadata.members? }

/-- An edge from JSON. -/
def Edge.ofJson? : Json → Option Edge
  | .obj members => do
    Edge.ofFields? (← member? "source" members) (← member? "target" members)
      (← member? "type" members) (← member? "metadata" members)
  | .arr [source, target, kind, metadata] => Edge.ofFields? source target kind metadata
  | _ => none

/-! ## Reports -/

/-- A node with its degree as JSON. -/
def RatedNode.toJson (rated : RatedNode) : Json :=
  .obj (rated.node.members ++ [("degree", .int rated.degree)])

/-- A node with its degree from JSON. -/
def RatedNode.ofJson? : Json → Option RatedNode
  | .obj members => do
    return {
      node := ← Node.ofMembers? isNullOrBare members
      degree := ← (← member? "degree" members).nat? }
  | _ => none

/-- Totals as JSON. -/
def Totals.toJson (totals : Totals) : Json :=
  .obj [("total_nodes", .int totals.nodes), ("total_edges", .int totals.edges)]

/-- Totals from JSON. -/
def Totals.ofJson? : Json → Option Totals
  | .obj members => do
    return {
      nodes := ← (← member? "total_nodes" members).nat?
      edges := ← (← member? "total_edges" members).nat? }
  | .arr [nodes, edges] => do
    return { nodes := ← nodes.nat?, edges := ← edges.nat? }
  | _ => none

/-- A table by kind as JSON. -/
def tableToJson {κ β : Type} (name : κ → String) (write : β → Json) (table : List (κ × β)) : Json :=
  .obj (table.map fun entry => (name entry.1, write entry.2))

/-- A table by kind from JSON, put into the order of the legend. A name of no kind is refused. -/
def tableOfJson? {κ β : Type} (kinds : List κ) (name : κ → String) (read : Json → Option β) :
    Json → Option (List (κ × β))
  | .obj members =>
    if members.all fun m => kinds.any fun kind => name kind = m.1 then
      (kinds.filterMap fun kind => (member? (name kind) members).map fun v => (kind, v)).mapM
        fun entry => (read entry.2).map fun value => (entry.1, value)
    else none
  | _ => none

/-- A report as JSON; an unnamed repository is left out. -/
def Report.toJson (report : Report) : Json :=
  .obj ([("nodes", .arr (report.nodes.map RatedNode.toJson)),
    ("edges", .arr (report.edges.map Edge.toJson)),
    ("node_colors", tableToJson NodeKind.name .str report.nodeColors),
    ("edge_colors", tableToJson EdgeKind.name .str report.edgeColors),
    ("node_type_counts", tableToJson NodeKind.name (fun n => .int (n : Nat)) report.nodeCounts),
    ("edge_type_counts", tableToJson EdgeKind.name (fun n => .int (n : Nat)) report.edgeCounts),
    ("stats", report.totals.toJson)] ++
    match report.repository with
    | some name => [("repo_name", .str name)]
    | none => [])

/-- The name of a repository, which may be `null`. -/
def repositoryOf? : Json → Option (Option String)
  | .null => some none
  | .str name => some (some name)
  | _ => none

/-- A report from the values of its fields. -/
def Report.ofFields? (nodes edges nodeColors edgeColors nodeCounts edgeCounts totals
    repository : Json) : Option Report := do
  return {
    nodes := ← nodes.listOf? RatedNode.ofJson?
    edges := ← edges.listOf? Edge.ofJson?
    nodeColors := ← tableOfJson? NodeKind.all NodeKind.name string? nodeColors
    edgeColors := ← tableOfJson? EdgeKind.all EdgeKind.name string? edgeColors
    nodeCounts := ← tableOfJson? NodeKind.all NodeKind.name nat? nodeCounts
    edgeCounts := ← tableOfJson? EdgeKind.all EdgeKind.name nat? edgeCounts
    totals := ← Totals.ofJson? totals
    repository := ← repositoryOf? repository }

/-- A report from JSON. -/
def Report.ofJson? : Json → Option Report
  | .obj members => do
    Report.ofFields? (← member? "nodes" members) (← member? "edges" members)
      (← member? "node_colors" members) (← member? "edge_colors" members)
      (← member? "node_type_counts" members) (← member? "edge_type_counts" members)
      (← member? "stats" members) ((member? "repo_name" members).getD .null)
  | .arr [nodes, edges, nodeColors, edgeColors, nodeCounts, edgeCounts, totals] =>
    Report.ofFields? nodes edges nodeColors edgeColors nodeCounts edgeCounts totals .null
  | .arr [nodes, edges, nodeColors, edgeColors, nodeCounts, edgeCounts, totals, repository] =>
    Report.ofFields? nodes edges nodeColors edgeColors nodeCounts edgeCounts totals repository
  | _ => none

end Cartograph
