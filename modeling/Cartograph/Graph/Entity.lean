import Cartograph.Graph.Kind
import Cartograph.Json.Basic
import Cartograph.Text.Split

/-!
# Nodes and edges

A node is an entity found in a repository and an edge relates two entities by their identifiers.
Identifiers begin with the sort of entity. An import whose target is not known yet points at a
placeholder, an identifier that no node ever has.
-/

namespace Cartograph

/-- Further facts about a node or an edge, sorted by key. -/
abbrev Metadata := List (String × Json)

/-! ## Identifiers -/

/-- The identifier of the file at a path. -/
def fileId (path : String) : String :=
  "file:" ++ path

/-- What the placeholder of an unresolved import begins with. -/
def placeholderMark : String :=
  "module:"

/-- The placeholder of an import of `target`. -/
def placeholderId (target : String) : String :=
  placeholderMark ++ target

/-- The identifier of a class known by name only. -/
def classRefId (name : String) : String :=
  "class_ref:" ++ name

/-- The identifier of a class in a file. -/
def classId (path name : String) : String :=
  "class:" ++ path ++ ":" ++ name

/-- The identifier of a function in a file. -/
def functionId (path name : String) : String :=
  "func:" ++ path ++ ":" ++ name

/-- The identifier of an endpoint in a file. -/
def endpointId (path label : String) : String :=
  "endpoint:" ++ path ++ ":" ++ label

/-- The identifier of a data model in a file. -/
def modelId (path name : String) : String :=
  "model:" ++ path ++ ":" ++ name

/-- The identifier of the router that a file sets up. -/
def routerId (path : String) : String :=
  "router:" ++ path

/-- What the placeholder `id` stands for. -/
def placeholderTarget? (id : String) : Option String :=
  Text.stripStart? id placeholderMark

/-- A placeholder stands for its target. -/
theorem placeholderTarget?_placeholderId (target : String) :
    placeholderTarget? (placeholderId target) = some target := by
  simp [placeholderTarget?, placeholderId, Text.stripStart?, String.toList_append,
    Text.stripLead?_append]

/-! ## Nodes -/

/-- An entity of a repository. -/
structure Node where
  /-- What tells this node from every other. -/
  id : String
  /-- What a reader is shown. -/
  label : String
  kind : NodeKind
  /-- The file that holds the entity; empty for one known by name only. -/
  path : String := ""
  /-- The line, counted from one; zero where there is none. -/
  line : UInt32 := 0
  metadata : Metadata := []
  deriving BEq, Inhabited, Repr

/-- The node with one more fact. -/
def Node.note (node : Node) (key : String) (value : Json) : Node :=
  { node with metadata := Json.insertMember key value node.metadata }

/-- The node of a class known by name only. Every file that names the class builds the same one. -/
def Node.classRef (name : String) : Node :=
  { id := classRefId name, label := name, kind := .class,
    metadata := [("external_ref", .bool true)] }

/-! ## Edges -/

/-- A relation from one node to another. -/
structure Edge where
  source : String
  target : String
  kind : EdgeKind
  metadata : Metadata := []
  deriving BEq, Inhabited, Repr

/-- The edge with one more fact. -/
def Edge.note (edge : Edge) (key : String) (value : Json) : Edge :=
  { edge with metadata := Json.insertMember key value edge.metadata }

/-- An edge from a node to itself, which says that the node does something. -/
def Edge.marker (id : String) (kind : EdgeKind) : Edge :=
  { source := id, target := id, kind }

/-- What an import edge stands for while its target is unknown. -/
def Edge.unresolved? (edge : Edge) : Option String :=
  if edge.kind = .imports then placeholderTarget? edge.target else none

/-- What tells an edge from every other: its ends and its kind. -/
def Edge.triple (edge : Edge) : String × String × EdgeKind :=
  (edge.source, edge.target, edge.kind)

end Cartograph
