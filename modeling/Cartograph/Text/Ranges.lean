/-!
# Sets of characters given by code ranges

A character class of the Unicode standard is a table of inclusive code ranges; membership is a
search through the table.
-/

namespace Cartograph.Text

/-- Inclusive ranges of character codes. -/
abbrev CodeRanges := Array (Nat × Nat)

/-- The character `c` lies in one of the ranges. -/
def CodeRanges.has (ranges : CodeRanges) (c : Char) : Bool :=
  ranges.any fun range => range.1 ≤ c.toNat && c.toNat ≤ range.2

/-- A character is in a table exactly when some range of the table holds its code. -/
theorem CodeRanges.has_iff {ranges : CodeRanges} {c : Char} :
    ranges.has c = true ↔ ∃ range ∈ ranges, range.1 ≤ c.toNat ∧ c.toNat ≤ range.2 := by
  unfold CodeRanges.has
  rw [Array.any_eq_true']
  simp

end Cartograph.Text
