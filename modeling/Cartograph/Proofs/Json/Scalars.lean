import Cartograph.Json.Reader
import Cartograph.Json.Writer
import Mathlib

/-!
# Strings and numbers, written and read

A string that was written with its escapes reads back as the same string, whatever its characters
are (`Json.takeString_escapeOnto`). The digits of a whole number are taken as far as they go if what
follows does not continue them (`Json.takeUnsigned_digits`), and they stand for the number if a
64-bit word holds it.
-/

namespace Cartograph.Json

open Cartograph.Text

/-! ## Strings -/

theorem takeStringOnto_quote (acc rest : List Char) :
    takeStringOnto acc ('"' :: rest) = some (String.ofList acc.reverse, rest) := by
  rw [takeStringOnto, if_pos rfl]

theorem takeStringOnto_plain {c : Char} (hquote : c ≠ '"') (hslash : c ≠ '\\')
    (hcode : 0x20 ≤ c.toNat) (acc rest : List Char) :
    takeStringOnto acc (c :: rest) = takeStringOnto (c :: acc) rest := by
  rw [takeStringOnto, if_neg hquote, if_neg hslash, if_neg (Nat.not_lt.mpr hcode)]

theorem takeStringOnto_escaped {c : Char} {rest after : List Char}
    (h : takeEscape rest = some (c, after)) (acc : List Char) :
    takeStringOnto acc ('\\' :: rest) = takeStringOnto (c :: acc) after := by
  rw [takeStringOnto, if_neg (by decide), if_pos rfl]
  split
  · rename_i e r heq
    rw [h] at heq
    cases heq
    rfl
  · rename_i heq
    rw [h] at heq
    cases heq

theorem hexValue?_hexChar {n : Nat} (h : n < 16) : hexValue? (hexChar n) = some n := by
  have key : ∀ k : Fin 16, hexValue? (hexChar k.val) = some k.val := by decide
  exact key ⟨n, h⟩

/-- A control character reads back from its code. -/
theorem takeEscape_code {c : Char} (h : c.toNat < 0x20) (rest : List Char) :
    takeEscape ('u' :: '0' :: '0' :: hexChar (c.toNat / 16) :: hexChar (c.toNat % 16) :: rest)
      = some (c, rest) := by
  have hzero : hexValue? '0' = some 0 := by decide
  have hcode : ((0 * 16 + 0) * 16 + c.toNat / 16) * 16 + c.toNat % 16 = c.toNat := by omega
  have hread : takeHex4 ('0' :: '0' :: hexChar (c.toNat / 16) :: hexChar (c.toNat % 16) :: rest)
      = some (c.toNat, rest) := by
    simp only [takeHex4, hzero, hexValue?_hexChar (show c.toNat / 16 < 16 by omega),
      hexValue?_hexChar (show c.toNat % 16 < 16 by omega), Option.bind_eq_bind, Option.bind_some,
      hcode]
    rfl
  rw [takeEscape, takeCode, hread]
  simp only [Option.bind_eq_bind, Option.bind_some]
  rw [if_pos (Or.inl (by omega)), Char.ofNat_toNat]
  rfl

/-- **Every character reads back from its escape**, and nothing more is taken. -/
theorem takeStringOnto_escape (c : Char) (acc rest : List Char) :
    takeStringOnto acc (escape c ++ rest) = takeStringOnto (c :: acc) rest := by
  unfold escape
  -- one case for each way to write a character, in the order in which they are tried
  split
  · subst c
    exact takeStringOnto_escaped rfl acc
  split
  · subst c
    exact takeStringOnto_escaped rfl acc
  split
  · subst c
    exact takeStringOnto_escaped rfl acc
  split
  · subst c
    exact takeStringOnto_escaped rfl acc
  split
  · subst c
    exact takeStringOnto_escaped rfl acc
  split
  · subst c
    exact takeStringOnto_escaped rfl acc
  split
  · subst c
    exact takeStringOnto_escaped rfl acc
  split
  · rename_i hcode
    exact takeStringOnto_escaped (takeEscape_code hcode rest) acc
  · rename_i hquote hslash _ _ _ _ _ hcode
    exact takeStringOnto_plain hquote hslash (Nat.not_lt.mp hcode) acc rest

/-- **A string reads back** up to its closing quote. -/
theorem takeString_escapeOnto (s : String) (tail : List Char) :
    takeString (escapeOnto s.toList ('"' :: tail)) = some (s, tail) := by
  have key : ∀ (cs acc : List Char), takeStringOnto acc (escapeOnto cs ('"' :: tail))
      = some (String.ofList (acc.reverse ++ cs), tail) := by
    intro cs
    induction cs with
    | nil =>
        intro acc
        rw [List.append_nil]
        exact takeStringOnto_quote acc tail
    | cons c rest ih =>
        intro acc
        have hread : takeStringOnto acc (escapeOnto (c :: rest) ('"' :: tail))
            = takeStringOnto (c :: acc) (escapeOnto rest ('"' :: tail)) :=
          takeStringOnto_escape c acc _
        rw [hread, ih, List.reverse_cons, List.append_assoc, List.singleton_append]
  rw [takeString, key, List.reverse_nil, List.nil_append, String.ofList_toList]

/-! ## Numbers -/

/-- A whole number that a signed or an unsigned 64-bit word holds. -/
def Fits (n : Int) : Prop :=
  -((UInt64.size / 2 : Nat) : Int) ≤ n ∧ n < (UInt64.size : Nat)

instance (n : Int) : Decidable (Fits n) :=
  inferInstanceAs (Decidable (_ ∧ _))

/-- The text does not continue a number. -/
def Stops (tail : List Char) : Prop :=
  ∀ c ∈ tail.head?, Decimal.isDigit c = false ∧ c ≠ '.' ∧ c ≠ 'e' ∧ c ≠ 'E'

/-- The digits in front are taken as far as they go. -/
theorem takeDigits_append {ds tail : List Char} (hds : ∀ d ∈ ds, Decimal.isDigit d = true)
    (hne : ds ≠ []) (htail : Stops tail) : takeDigits (ds ++ tail) = some (ds, tail) := by
  have hend : tail.takeWhile Decimal.isDigit = [] := by
    cases tail with
    | nil => rfl
    | cons c rest => exact List.takeWhile_cons_of_neg (by simp [(htail c rfl).1])
  have hrest : tail.dropWhile Decimal.isDigit = tail := by
    cases tail with
    | nil => rfl
    | cons c rest => exact List.dropWhile_cons_of_neg (by simp [(htail c rfl).1])
  rw [takeDigits, List.span_eq_takeWhile_dropWhile, List.takeWhile_append_of_pos hds,
    List.dropWhile_append_of_pos hds, hend, hrest, List.append_nil]
  cases ds with
  | nil => exact absurd rfl hne
  | cons d rest => rfl

/-- The digits of a number do not begin with zero unless it is zero. -/
theorem exists_digits_eq_cons {n : Nat} (h : 0 < n) :
    ∃ d ds, Decimal.digits n = d :: ds ∧ d ≠ '0' := by
  induction n using Nat.strongRecOn with
  | ind n ih =>
      by_cases hlt : n < 10
      · have hzero : ∀ k : Fin 10, 0 < k.val → Decimal.digitChar k.val ≠ '0' := by decide
        exact ⟨_, [], Decimal.digits_of_lt hlt, hzero ⟨n, hlt⟩ h⟩
      · obtain ⟨d, ds, hds, hd⟩ := ih (n / 10) (by omega) (by omega)
        refine ⟨d, ds ++ [Decimal.digitChar (n % 10)], ?_, hd⟩
        rw [Decimal.digits_of_le (by omega), hds, List.cons_append]

theorem digits_ne_nil (n : Nat) : Decimal.digits n ≠ [] := by
  by_cases hlt : n < 10
  · rw [Decimal.digits_of_lt hlt]
    exact List.cons_ne_nil _ _
  · rw [Decimal.digits_of_le (by omega)]
    exact List.append_ne_nil_of_right_ne_nil _ (List.cons_ne_nil _ _)

theorem takeWhole_digits (n : Nat) {tail : List Char} (htail : Stops tail) :
    takeWhole (Decimal.digits n ++ tail) = some (Decimal.digits n, tail) := by
  rcases Nat.eq_zero_or_pos n with rfl | hpos
  · rw [Decimal.digits_of_lt (by decide)]
    rfl
  · obtain ⟨d, ds, hds, hd⟩ := exists_digits_eq_cons hpos
    rw [← takeDigits_append (Decimal.isDigit_of_mem_digits n) (digits_ne_nil n) htail, hds,
      List.cons_append, takeWhole]
    exact fun rest => by simp [hd]

/-- A number without its sign is taken as far as it goes. -/
theorem takeUnsigned_digits (negative : Bool) (n : Nat) {tail : List Char} (htail : Stops tail) :
    takeUnsigned negative (Decimal.digits n ++ tail)
      = some (numberOf negative (Decimal.digits n) [] [], tail) := by
  have hfraction : takeFraction tail = some ([], tail) := by
    cases tail with
    | nil => rfl
    | cons c rest => rw [takeFraction]; exact fun _ h => (htail c rfl).2.1 (List.cons.inj h).1
  have hexponent : takeExponent tail = some ([], tail) := by
    cases tail with
    | nil => rfl
    | cons c rest =>
        rw [takeExponent]
        · exact fun _ h => (htail c rfl).2.2.1 (List.cons.inj h).1
        · exact fun _ h => (htail c rfl).2.2.2 (List.cons.inj h).1
  simp only [takeUnsigned, takeWhole_digits n htail, hfraction, hexponent, Option.bind_eq_bind,
    Option.bind_some, Option.pure_def]

theorem numberOf_digits {n : Nat} (h : n < UInt64.size) :
    numberOf false (Decimal.digits n) [] [] = .int n := by
  simp only [numberOf, Decimal.ofDigits_digits]
  simp [h]

/-- A whole number that does not fit keeps its text. -/
theorem numberOf_digits_of_le {n : Nat} (h : UInt64.size ≤ n) :
    numberOf false (Decimal.digits n) [] [] = .decimal (String.ofList (Decimal.digits n)) := by
  simp only [numberOf, Decimal.ofDigits_digits]
  simp [Nat.not_lt.mpr h]

theorem numberOf_digits_negative {n : Nat} (hpos : 0 < n) (h : n ≤ UInt64.size / 2) :
    numberOf true (Decimal.digits n) [] [] = .int (-(n : Int)) := by
  simp only [numberOf, Decimal.ofDigits_digits]
  simp [hpos.ne', Nat.not_lt.mpr h]

theorem numberOf_digits_negative_of_lt {n : Nat} (h : UInt64.size / 2 < n) :
    numberOf true (Decimal.digits n) [] []
      = .decimal (String.ofList ('-' :: Decimal.digits n)) := by
  simp only [numberOf, Decimal.ofDigits_digits]
  simp [h]

end Cartograph.Json
