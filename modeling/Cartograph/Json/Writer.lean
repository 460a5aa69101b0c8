import Cartograph.Json.Basic
import Cartograph.Text.Decimal

/-!
# JSON text, written

Two layouts of one value: `compact` uses no blank at all, and `pretty` puts each item and each
member on a line of its own, two blanks deeper than what holds it. Characters outside ASCII are
written as they are. Of the control characters, five have a short escape, and the others are
written by their code.
-/

namespace Cartograph.Json

open Cartograph.Text

/-! ## Strings and numbers -/

/-- A hexadecimal digit, letters small. -/
def hexChar (n : Nat) : Char :=
  if n < 10 then Char.ofNat ('0'.toNat + n) else Char.ofNat ('a'.toNat + (n - 10))

/-- The characters that stand for `c` inside a string. -/
def escape (c : Char) : List Char :=
  if c = '"' then ['\\', '"']
  else if c = '\\' then ['\\', '\\']
  else if c = '\n' then ['\\', 'n']
  else if c = '\r' then ['\\', 'r']
  else if c = '\t' then ['\\', 't']
  else if c = '\x08' then ['\\', 'b']
  else if c = '\x0c' then ['\\', 'f']
  else if c.toNat < 0x20 then ['\\', 'u', '0', '0', hexChar (c.toNat / 16), hexChar (c.toNat % 16)]
  else [c]

/-- The escaped characters, followed by `tail`. -/
def escapeOnto (cs tail : List Char) : List Char :=
  cs.foldr (fun c after => escape c ++ after) tail

/-- A quoted string, followed by `tail`. -/
def quoteOnto (s : String) (tail : List Char) : List Char :=
  '"' :: escapeOnto s.toList ('"' :: tail)

/-- A whole number, followed by `tail`. -/
def intOnto (n : Int) (tail : List Char) : List Char :=
  match n with
  | .ofNat m => Decimal.digitsOnto m tail
  | .negSucc m => '-' :: Decimal.digitsOnto (m + 1) tail

/-! ## The compact layout -/

mutual

/-- The value without blanks, followed by `tail`. -/
def compactOnto : Json → List Char → List Char
  | .null, tail => "null".toList ++ tail
  | .bool true, tail => "true".toList ++ tail
  | .bool false, tail => "false".toList ++ tail
  | .int n, tail => intOnto n tail
  | .decimal text, tail => text.toList ++ tail
  | .str s, tail => quoteOnto s tail
  | .arr [], tail => '[' :: ']' :: tail
  | .arr (v :: rest), tail => '[' :: compactOnto v (compactItems rest tail)
  | .obj [], tail => '\x7b' :: '\x7d' :: tail
  | .obj ((k, v) :: rest), tail =>
    '\x7b' :: quoteOnto k (':' :: compactOnto v (compactMembers rest tail))

/-- The items after the first, and the closing bracket. -/
def compactItems : List Json → List Char → List Char
  | [], tail => ']' :: tail
  | v :: rest, tail => ',' :: compactOnto v (compactItems rest tail)

/-- The members after the first, and the closing brace. -/
def compactMembers : List (String × Json) → List Char → List Char
  | [], tail => '\x7d' :: tail
  | (k, v) :: rest, tail =>
    ',' :: quoteOnto k (':' :: compactOnto v (compactMembers rest tail))

end

/-- The value on one line. -/
def compact (v : Json) : String :=
  String.ofList (compactOnto v [])

/-! ## The pretty layout -/

/-- A new line at the given depth, followed by `tail`. -/
def lineOnto (depth : Nat) (tail : List Char) : List Char :=
  '\n' :: (List.replicate (2 * depth) ' ' ++ tail)

mutual

/-- The value over several lines, its first line already at `depth`, followed by `tail`. -/
def prettyOnto (depth : Nat) : Json → List Char → List Char
  | .null, tail => "null".toList ++ tail
  | .bool true, tail => "true".toList ++ tail
  | .bool false, tail => "false".toList ++ tail
  | .int n, tail => intOnto n tail
  | .decimal text, tail => text.toList ++ tail
  | .str s, tail => quoteOnto s tail
  | .arr [], tail => '[' :: ']' :: tail
  | .arr (v :: rest), tail =>
    '[' :: lineOnto (depth + 1) (prettyOnto (depth + 1) v (prettyItems depth rest tail))
  | .obj [], tail => '\x7b' :: '\x7d' :: tail
  | .obj ((k, v) :: rest), tail =>
    '\x7b' :: lineOnto (depth + 1)
      (quoteOnto k (':' :: ' ' :: prettyOnto (depth + 1) v (prettyMembers depth rest tail)))

/-- The items after the first, and the closing bracket at `depth`. -/
def prettyItems (depth : Nat) : List Json → List Char → List Char
  | [], tail => lineOnto depth (']' :: tail)
  | v :: rest, tail =>
    ',' :: lineOnto (depth + 1) (prettyOnto (depth + 1) v (prettyItems depth rest tail))

/-- The members after the first, and the closing brace at `depth`. -/
def prettyMembers (depth : Nat) : List (String × Json) → List Char → List Char
  | [], tail => lineOnto depth ('\x7d' :: tail)
  | (k, v) :: rest, tail =>
    ',' :: lineOnto (depth + 1)
      (quoteOnto k (':' :: ' ' :: prettyOnto (depth + 1) v (prettyMembers depth rest tail)))

end

/-- The value over several lines. -/
def pretty (v : Json) : String :=
  String.ofList (prettyOnto 0 v [])

end Cartograph.Json
