import Cartograph.Proofs.Imports.Law
import Cartograph.Proofs.Imports.Modules

/-!
# Imports of siblings

Where a Python file leads whose only import is out of a module of one name, say `from .y import z`.
Leading dots are dropped and the importing file is not asked, so the name is looked for in the whole
repository: a sibling of that name is found only if no file that comes first has the name as well.
-/

namespace Cartograph

/-! ## The only import of a file -/

namespace Python

end Python

section

variable {tree : FileTree} {root : Place} {directory : List String} {settings : Settings}
  {x y : String}

end

end Cartograph
