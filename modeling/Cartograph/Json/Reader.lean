import Cartograph.Json.Basic
import Cartograph.Text.Decimal

/-!
# JSON text, read

`readValue` takes one value off the front of a text and gives the characters after it; `read?` reads
a text that is one value and blanks around it. Members keep their order and repeated keys are kept,
so that a caller may refuse them.
-/

namespace Cartograph.Json

open Cartograph.Text

/-! ## Blanks and numbers -/

/-- The four blanks of the format. -/
def isGap (c : Char) : Bool :=
  c = ' ' || c = '\n' || c = '\t' || c = '\r'

/-- The text after leading blanks. -/
def skipGap (cs : List Char) : List Char :=
  cs.dropWhile isGap

/-- The digits at the front of a text and the rest; there has to be a digit. -/
def takeDigits (cs : List Char) : Option (List Char × List Char) :=
  match cs.span Decimal.isDigit with
  | ([], _) => none
  | (ds, rest) => some (ds, rest)

/-- The whole part of a number: a lone zero, or digits that do not begin with zero. -/
def takeWhole : List Char → Option (List Char × List Char)
  | '0' :: rest => some (['0'], rest)
  | cs => takeDigits cs

/-- The fraction of a number, if it has one. -/
def takeFraction : List Char → Option (List Char × List Char)
  | '.' :: rest => (takeDigits rest).map fun (ds, r) => ('.' :: ds, r)
  | cs => some ([], cs)

/-- The sign and the digits of an exponent. -/
def takeExponentDigits : List Char → Option (List Char × List Char)
  | '+' :: rest => (takeDigits rest).map fun (ds, r) => ('+' :: ds, r)
  | '-' :: rest => (takeDigits rest).map fun (ds, r) => ('-' :: ds, r)
  | cs => takeDigits cs

/-- The exponent of a number, if it has one. -/
def takeExponent : List Char → Option (List Char × List Char)
  | 'e' :: rest => (takeExponentDigits rest).map fun (ds, r) => ('e' :: ds, r)
  | 'E' :: rest => (takeExponentDigits rest).map fun (ds, r) => ('E' :: ds, r)
  | cs => some ([], cs)

/-- A number from its parts. A whole number that no 64-bit word holds, a negative zero and every
number with a fraction or an exponent keep their text. -/
def numberOf (negative : Bool) (whole fraction exponent : List Char) : Json :=
  let text := (if negative then ['-'] else []) ++ whole ++ fraction ++ exponent
  if fraction.isEmpty && exponent.isEmpty then
    let n := Decimal.ofDigits whole
    if negative then
      if n = 0 || UInt64.size / 2 < n then .decimal (String.ofList text) else .int (-(n : Int))
    else if n < UInt64.size then .int (n : Int)
    else .decimal (String.ofList text)
  else .decimal (String.ofList text)

/-- A number without its sign. -/
def takeUnsigned (negative : Bool) (cs : List Char) : Option (Json × List Char) := do
  let (whole, r) ← takeWhole cs
  let (fraction, r) ← takeFraction r
  let (exponent, r) ← takeExponent r
  return (numberOf negative whole fraction exponent, r)

/-! ## Strings -/

/-- The value of a hexadecimal digit. -/
def hexValue? (c : Char) : Option Nat :=
  if '0' ≤ c ∧ c ≤ '9' then some (c.toNat - '0'.toNat)
  else if 'a' ≤ c ∧ c ≤ 'f' then some (c.toNat - 'a'.toNat + 10)
  else if 'A' ≤ c ∧ c ≤ 'F' then some (c.toNat - 'A'.toNat + 10)
  else none

/-- Four hexadecimal digits. -/
def takeHex4 : List Char → Option (Nat × List Char)
  | a :: b :: c :: d :: rest => do
    let a ← hexValue? a
    let b ← hexValue? b
    let c ← hexValue? c
    let d ← hexValue? d
    return (((a * 16 + b) * 16 + c) * 16 + d, rest)
  | _ => none

/-- A character given by its code, after the letter that announces it. A character past the first
plane is given by a pair of surrogates; a surrogate alone stands for nothing. -/
def takeCode (cs : List Char) : Option (Char × List Char) := do
  let (high, rest) ← takeHex4 cs
  if high < 0xd800 ∨ 0xe000 ≤ high then return (Char.ofNat high, rest)
  else if high < 0xdc00 then
    match rest with
    | '\\' :: 'u' :: rest =>
      let (low, rest) ← takeHex4 rest
      if 0xdc00 ≤ low ∧ low < 0xe000 then
        return (Char.ofNat (0x10000 + (high - 0xd800) * 0x400 + (low - 0xdc00)), rest)
      else none
    | _ => none
  else none

/-- The character that an escape stands for, after the backslash. -/
def takeEscape : List Char → Option (Char × List Char)
  | '"' :: rest => some ('"', rest)
  | '\\' :: rest => some ('\\', rest)
  | '/' :: rest => some ('/', rest)
  | 'b' :: rest => some ('\x08', rest)
  | 'f' :: rest => some ('\x0c', rest)
  | 'n' :: rest => some ('\n', rest)
  | 'r' :: rest => some ('\r', rest)
  | 't' :: rest => some ('\t', rest)
  | 'u' :: rest => takeCode rest
  | _ => none

theorem length_of_takeHex4 {cs : List Char} {n : Nat} {rest : List Char}
    (h : takeHex4 cs = some (n, rest)) : rest.length < cs.length := by
  unfold takeHex4 at h
  split at h
  · simp only [Option.bind_eq_bind, Option.bind_eq_some_iff, Option.pure_def, Option.some.injEq,
      Prod.mk.injEq] at h
    obtain ⟨_, _, _, _, _, _, _, _, _, rfl⟩ := h
    simp only [List.length_cons]
    omega
  · simp at h

theorem length_of_takeCode {cs : List Char} {c : Char} {rest : List Char}
    (h : takeCode cs = some (c, rest)) : rest.length < cs.length := by
  unfold takeCode at h
  simp only [Option.bind_eq_bind, Option.bind_eq_some_iff] at h
  obtain ⟨⟨high, after⟩, hread, h⟩ := h
  have hlt := length_of_takeHex4 hread
  split at h
  · simp only [Option.pure_def, Option.some.injEq, Prod.mk.injEq] at h
    obtain ⟨_, rfl⟩ := h
    exact hlt
  · split at h
    · split at h
      · rename_i heq
        simp only [Option.bind_eq_some_iff] at h
        obtain ⟨⟨low, last⟩, hlow, h⟩ := h
        have hlast := length_of_takeHex4 hlow
        split at h
        · simp only [Option.pure_def, Option.some.injEq, Prod.mk.injEq] at h
          obtain ⟨_, rfl⟩ := h
          rw [show after = _ from heq, List.length_cons, List.length_cons] at hlt
          omega
        · simp at h
      · simp at h
    · simp at h

/-- An escape is taken off the text. -/
theorem length_of_takeEscape {cs : List Char} {c : Char} {rest : List Char}
    (h : takeEscape cs = some (c, rest)) : rest.length < cs.length := by
  unfold takeEscape at h
  split at h
  case h_9 => exact Nat.lt_succ_of_lt (length_of_takeCode h)
  case h_10 => simp at h
  all_goals
    simp only [Option.some.injEq, Prod.mk.injEq] at h
    simp [h.2]

/-- The characters of a string up to its closing quote, which follow `acc` (last first). -/
def takeStringOnto (acc : List Char) : List Char → Option (String × List Char)
  | [] => none
  | c :: rest =>
    if c = '"' then some (String.ofList acc.reverse, rest)
    else if c = '\\' then
      match h : takeEscape rest with
      | some (e, r) =>
        have := length_of_takeEscape h
        takeStringOnto (e :: acc) r
      | none => none
    else if c.toNat < 0x20 then none
    else takeStringOnto (c :: acc) rest
  termination_by cs => cs.length
  decreasing_by
  · exact Nat.lt_succ_of_lt this
  · exact Nat.lt_succ_self _

/-- A string, after its opening quote. -/
def takeString (cs : List Char) : Option (String × List Char) :=
  takeStringOnto [] cs

/-- The text after the escape of a character whose value does not matter, after the backslash. A
surrogate may stand alone. -/
def skipEscape : List Char → Option (List Char)
  | 'u' :: rest => (takeHex4 rest).map (·.2)
  | cs => (takeEscape cs).map (·.2)

theorem length_of_skipEscape {cs rest : List Char} (h : skipEscape cs = some rest) :
    rest.length < cs.length := by
  unfold skipEscape at h
  split at h
  · obtain ⟨⟨n, r⟩, hread, rfl⟩ := Option.map_eq_some_iff.mp h
    exact Nat.lt_succ_of_lt (length_of_takeHex4 hread)
  · obtain ⟨⟨c, r⟩, hread, rfl⟩ := Option.map_eq_some_iff.mp h
    exact length_of_takeEscape hread

/-- The text after a string whose value does not matter, after its opening quote. -/
def skipString : List Char → Option (List Char)
  | [] => none
  | c :: rest =>
    if c = '"' then some rest
    else if c = '\\' then
      match h : skipEscape rest with
      | some r =>
        have := length_of_skipEscape h
        skipString r
      | none => none
    else if c.toNat < 0x20 then none
    else skipString rest
  termination_by cs => cs.length
  decreasing_by
  · exact Nat.lt_succ_of_lt this
  · exact Nat.lt_succ_self _

/-- A string whose value does not matter, read as an empty one. -/
def takeAnyString (cs : List Char) : Option (String × List Char) :=
  (skipString cs).map fun rest => ("", rest)

/-! ## Values -/

/-- A way to read a string, after its opening quote. -/
abbrev StringReader := List Char → Option (String × List Char)

/-- The text after `word`, if the text begins with it. -/
def takeWord : List Char → List Char → Option (List Char)
  | [], cs => some cs
  | w :: ws, c :: cs => if w = c then takeWord ws cs else none
  | _ :: _, [] => none

/-- How many arrays and objects may stand in one another. -/
def nestingLimit : Nat :=
  127

mutual

/-- One value and the characters after it; `fuel` bounds the steps, and `room` how many arrays and
objects may stand in one another. -/
def readValue (str : StringReader) : (fuel room : Nat) → List Char → Option (Json × List Char)
  | 0, _, _ => none
  | fuel + 1, room, cs =>
    match skipGap cs with
    | [] => none
    | c :: rest =>
      if c = '\x7b' then
        match room, skipGap rest with
        | 0, _ | _, [] => none
        | room + 1, d :: after =>
          if d = '\x7d' then some (.obj [], after)
          else do
            let (members, r) ← readMembers str fuel room (d :: after)
            return (.obj members, r)
      else if c = '[' then
        match room, skipGap rest with
        | 0, _ | _, [] => none
        | room + 1, d :: after =>
          if d = ']' then some (.arr [], after)
          else do
            let (items, r) ← readItems str fuel room (d :: after)
            return (.arr items, r)
      else if c = '"' then do
        let (s, r) ← str rest
        return (.str s, r)
      else if c = '-' then takeUnsigned true rest
      else if Decimal.isDigit c then takeUnsigned false (c :: rest)
      else if c = 'n' then (takeWord "ull".toList rest).map fun r => (.null, r)
      else if c = 't' then (takeWord "rue".toList rest).map fun r => (.bool true, r)
      else if c = 'f' then (takeWord "alse".toList rest).map fun r => (.bool false, r)
      else none

/-- Items up to the closing bracket; there has to be one. -/
def readItems (str : StringReader) : (fuel room : Nat) → List Char →
    Option (List Json × List Char)
  | 0, _, _ => none
  | fuel + 1, room, cs => do
    let (v, r) ← readValue str fuel room cs
    match skipGap r with
    | ',' :: r =>
      let (items, r) ← readItems str fuel room r
      return (v :: items, r)
    | ']' :: r => return ([v], r)
    | _ => none

/-- Members up to the closing brace; there has to be one. -/
def readMembers (str : StringReader) : (fuel room : Nat) → List Char →
    Option (List (String × Json) × List Char)
  | 0, _, _ => none
  | fuel + 1, room, cs =>
    match skipGap cs with
    | '"' :: r => do
      let (key, r) ← str r
      match skipGap r with
      | ':' :: r =>
        let (v, r) ← readValue str fuel room r
        match skipGap r with
        | ',' :: r =>
          let (members, r) ← readMembers str fuel room r
          return ((key, v) :: members, r)
        | '\x7d' :: r => return ([(key, v)], r)
        | _ => none
      | _ => none
    | _ => none

end

/-- One value and the characters after it. -/
def takeValue (cs : List Char) : Option (Json × List Char) :=
  readValue takeString (cs.length + 1) nestingLimit cs

/-- The characters after a value that does not matter, however deep it is nested. -/
def skipValue (cs : List Char) : Option (List Char) :=
  (readValue takeAnyString (cs.length + 1) cs.length cs).map (·.2)

/-- The value that a text is, members in their order. -/
def read? (s : String) : Option Json :=
  match takeValue s.toList with
  | some (v, rest) => if (skipGap rest).isEmpty then some v else none
  | none => none

/-- The value that a text is, in its canonical form. -/
def parse? (s : String) : Option Json :=
  (read? s).map canonical

end Cartograph.Json
