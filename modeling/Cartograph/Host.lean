import Cartograph.FileTree.Path

/-!
# The machine

What the files of a machine do not decide: whether it can start workers, what goes wrong when a file
is written, and whether a text can be passed on to the user. Nothing is said of when it fails, so
what holds for every machine holds whatever goes wrong.
-/

namespace Cartograph

/-- What a machine does besides keeping files. -/
structure Host where
  /-- Why no pool of so many workers can be built, in words of the machine. -/
  poolFault? : UInt64 → Option String := fun _ => none
  /-- What goes wrong when bytes are written into the file at a place. -/
  writeFault? : Place → List UInt8 → Option FileTree.WriteFault := fun _ _ => none
  /-- The text cannot be printed. -/
  printFails : String → Bool := fun _ => false
  /-- The user cannot be told the text besides. -/
  noteFails : String → Bool := fun _ => false
  deriving Inhabited

end Cartograph
