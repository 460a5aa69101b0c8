import Cartograph.Graph.Entity

/-!
# Facts about nodes

A node carries further facts, one for each key. Noting a fact puts it under its key and leaves the
facts under all other keys alone (`Node.fact?_note`, `Node.fact?_note_of_ne`).
-/

namespace Cartograph

/-- What the node says under a key. -/
def Node.fact? (node : Node) (key : String) : Option Json :=
  Json.member? key node.metadata

namespace Node

variable (node : Node)

@[simp] theorem fact?_note (key : String) (value : Json) :
    (node.note key value).fact? key = some value :=
  Json.member?_insertMember key value node.metadata

theorem fact?_note_of_ne {key other : String} (h : key ≠ other) (value : Json) :
    (node.note key value).fact? other = node.fact? other :=
  Json.member?_insertMember_of_ne h value node.metadata

end Node

end Cartograph
