import Cartograph.Text.Raw
import Cartograph.Text.Split

/-!
# File paths

A path is a run of bytes; what it denotes is the list of its parts. Repeated separators and inner
`.` parts vanish, `..` stays. A separator in front is a part of its own.
-/

namespace Cartograph

/-- One part of a path. -/
inductive PathPart where
  /-- The separator in front. -/
  | root
  /-- A `.` in front. -/
  | here
  /-- A `..` anywhere. -/
  | up
  | name (text : RawText)
  deriving DecidableEq, Inhabited, Repr

/-- How a part is written. -/
def PathPart.text : PathPart → RawText
  | .root => "/"
  | .here => "."
  | .up => ".."
  | .name text => text

/-- The name that a part is, if it is one. -/
def PathPart.name? : PathPart → Option RawText
  | .name text => some text
  | _ => none

namespace FilePath

/-- The byte between the names of a path. -/
def separator : UInt8 :=
  0x2f

/-- The byte of a dot. -/
def dot : UInt8 :=
  0x2e

/-! ## Parts -/

/-- The part that a piece between separators is, if it is one. -/
def partOf? (piece : List UInt8) : Option PathPart :=
  if piece = [] ∨ piece = [dot] then none
  else if piece = [dot, dot] then some .up
  else some (.name ⟨piece⟩)

/-- The part in front, before any name, of a path with these pieces between separators. -/
def front : List (List UInt8) → List PathPart
  | [] :: _ :: _ => [.root]
  | piece :: _ => if piece = [dot] then [.here] else []
  | [] => []

/-- The parts of a path. -/
def parts (path : RawText) : List PathPart :=
  let pieces := Text.pieces separator path.bytes
  front pieces ++ pieces.filterMap partOf?

/-- What is shown of the parts, with a separator between any two. -/
def ofParts (parts : List PathPart) : String :=
  Text.joinText '/' (parts.map fun part => part.text.shown)

/-- The parts of `path` below `root`, or all of them if it is not below. -/
def relativeParts (root path : List PathPart) : List PathPart :=
  if root.isPrefixOf path then path.drop root.length else path

/-- The path begins at the root. -/
def isAbsolute (path : RawText) : Bool :=
  path.bytes.head? = some separator

/-- The path `path` seen from the directory `base`: an absolute path stays what it is. -/
def join (base path : RawText) : RawText :=
  if isAbsolute path || base.isEmpty then path
  else if base.bytes.getLast? = some separator then base ++ path
  else base ++ ("/" : RawText) ++ path

/-! ## The last part -/

/-- The name at the end of a path. -/
def fileName? (path : RawText) : Option RawText :=
  (parts path).getLast?.bind PathPart.name?

/-- A name cut at its last separator. A name that begins with its last separator is not cut. -/
def cutAtLast {α : Type} [DecidableEq α] (sep : α) (name : List α) : List α × Option (List α) :=
  match (Text.pieces sep name).reverse with
  | last :: p :: ps =>
    let stem := Text.glue sep (p :: ps).reverse
    if stem.isEmpty then (name, none) else (stem, some last)
  | _ => (name, none)

/-- A name without its extension, and the extension. -/
def cutExtension (name : RawText) : RawText × Option RawText :=
  let cut := cutAtLast dot name.bytes
  (⟨cut.1⟩, cut.2.map RawText.mk)

/-- The extension of the last name, without its dot. -/
def extension? (path : RawText) : Option RawText :=
  (fileName? path).bind fun name => (cutExtension name).2

/-- The last name without its extension. -/
def stem? (path : RawText) : Option RawText :=
  (fileName? path).map fun name => (cutExtension name).1

end FilePath

end Cartograph
