import Cartograph.Text.Ranges

/-!
# White space

The characters with the `White_Space` property. They separate the words of text patterns, and they
are what trimming removes from both ends of a text.
-/

namespace Cartograph.Text

/-! ## The class -/

/-- The characters with the `White_Space` property. -/
def blankRanges : CodeRanges := #[
  (0x9, 0xd), (0x20, 0x20), (0x85, 0x85), (0xa0, 0xa0), (0x1680, 0x1680), (0x2000, 0x200a),
  (0x2028, 0x2029), (0x202f, 0x202f), (0x205f, 0x205f), (0x3000, 0x3000)]

/-- The character is white space. -/
def isBlank (c : Char) : Bool :=
  if c.toNat < 0x80 then c = ' ' || (0x9 ≤ c.toNat && c.toNat ≤ 0xd) else blankRanges.has c

/-! ## Trimming -/

/-- The characters left when white space is taken off both ends. -/
def trimChars (cs : List Char) : List Char :=
  ((cs.dropWhile isBlank).reverse.dropWhile isBlank).reverse

/-- The text left when white space is taken off both ends. -/
def trim (s : String) : String :=
  String.ofList (trimChars s.toList)

end Cartograph.Text
