import Cartograph.Text.Decimal

/-!
# Numbers too large for floating point

A decimal number whose nearest 64-bit floating point number would not be finite.
-/

namespace Cartograph.Text.Decimal

/-- The least number that no finite 64-bit floating point number is nearest to. -/
def overflowBound : Nat :=
  Nat.pow 2 1024 - Nat.pow 2 970

/-- The number `digits · 10 ^ exponent` is too large for a finite 64-bit floating point number. The
number of digits decides unless the number is close to the bound. -/
def overflows (digits : List Char) (exponent : Int) : Bool :=
  let ds := digits.dropWhile (· = '0')
  let magnitude := (ds.length : Int) + exponent
  if ds.isEmpty || magnitude < 309 then false
  else if 310 < magnitude then true
  else if exponent < 0 then overflowBound * Nat.pow 10 exponent.natAbs ≤ ofDigits ds
  else overflowBound ≤ ofDigits ds * Nat.pow 10 exponent.natAbs

end Cartograph.Text.Decimal
