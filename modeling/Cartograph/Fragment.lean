import Cartograph.Graph.Basic
import Cartograph.SourceFile

/-!
# Fragments

A fragment is the part of a code graph that one file contributes. It begins with the node of the
file. What the file declares is owned by that node; what it only mentions, a base class or an
imported module, may be declared elsewhere, so edges to it are not checked before the end.
-/

namespace Cartograph

/-- The fragment of a file of which nothing more is known. -/
def SourceFile.bareFragment (file : SourceFile) : Graph :=
  Graph.empty.addNode file.node

namespace Graph

/-- Adds an entity and an edge to it from the node of its file. -/
def addOwned (g : Graph) (file : SourceFile) (kind : EdgeKind) (node : Node) : Graph :=
  (g.addNode node).addEdge { source := file.id, target := node.id, kind }

/-- Adds a base class of the class `id`. -/
def addBase (id : String) (g : Graph) (base : String) : Graph :=
  (g.addNode (Node.classRef base)).addEdgeDeferred
    { source := id, target := classRefId base, kind := .inherits }

/-- Adds an import whose target is not known yet. -/
def addImport (file : SourceFile) (g : Graph) (target : String) : Graph :=
  g.addEdgeDeferred { source := file.id, target := placeholderId target, kind := .imports }

end Graph

end Cartograph
