import Cartograph.FileTree.Basic
import Cartograph.Text.Decimal

/-!
# Why a file cannot be looked into
-/

namespace Cartograph

/-- Why nothing but its node is known of a file. -/
inductive ExtractionError where
  /-- The file at `path` is not well-formed; the first fault is near `line`. -/
  | malformed (path : String) (line : Nat)
  /-- The file at `location` cannot be read. -/
  | unreadable (location : RawText) (cause : FileError)
  deriving DecidableEq, Inhabited, Repr

/-- What a reader is told. -/
def ExtractionError.message : ExtractionError → String
  | .malformed path line =>
    "Parse error in " ++ path ++ ": syntax error near line " ++ Text.Decimal.ofNat line
  | .unreadable location cause => "Failed to read " ++ location.shown ++ ": " ++ cause.message

end Cartograph
