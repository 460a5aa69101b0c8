/-!
# Decimal numbers

Whole numbers written in decimal digits without leading zeros, and read back from digits of any
number. Main statement: reading what was written gives the number back (`ofDigits_digits`).
-/

namespace Cartograph.Text.Decimal

/-! ## Digits -/

/-- The digit of a number below ten. -/
def digitChar (n : Nat) : Char :=
  Char.ofNat ('0'.toNat + n)

/-- The character is a decimal digit. -/
def isDigit (c : Char) : Bool :=
  '0' ≤ c && c ≤ '9'

/-- The value of a digit. -/
def digitValue (c : Char) : Nat :=
  c.toNat - '0'.toNat

/-! ## Writing -/

/-- The digits of `n`, followed by `tail`. -/
def digitsOnto (n : Nat) (tail : List Char) : List Char :=
  if n < 10 then digitChar n :: tail else digitsOnto (n / 10) (digitChar (n % 10) :: tail)

/-- The digits of `n`. -/
def digits (n : Nat) : List Char :=
  digitsOnto n []

/-- The decimal text of `n`. -/
def ofNat (n : Nat) : String :=
  String.ofList (digits n)

/-! ## Reading -/

/-- The number that the digits extend `high` to. -/
def ofDigitsFrom (high : Nat) (cs : List Char) : Nat :=
  cs.foldl (fun value c => value * 10 + digitValue c) high

/-- The number that the digits denote. -/
def ofDigits (cs : List Char) : Nat :=
  ofDigitsFrom 0 cs

/-- The digits of a number, before which a plus sign may stand. -/
def withoutPlus : List Char → List Char
  | '+' :: ds => ds
  | ds => ds

/-- The number below `bound` that a text denotes, if it denotes one. -/
def below? (bound : Nat) (text : String) : Option Nat :=
  let ds := withoutPlus text.toList
  if ds.isEmpty || !ds.all isDigit then none
  else if ofDigits ds < bound then some (ofDigits ds)
  else none

/-! ## Round trip -/

theorem digitValue_digitChar {n : Nat} (h : n < 10) : digitValue (digitChar n) = n := by
  have key : ∀ k : Fin 10, digitValue (digitChar k.val) = k.val := by decide
  exact key ⟨n, h⟩

theorem isDigit_digitChar {n : Nat} (h : n < 10) : isDigit (digitChar n) = true := by
  have key : ∀ k : Fin 10, isDigit (digitChar k.val) = true := by decide
  exact key ⟨n, h⟩

theorem digitsOnto_of_lt {n : Nat} (h : n < 10) (tail : List Char) :
    digitsOnto n tail = digitChar n :: tail := by
  rw [digitsOnto, if_pos h]

theorem digitsOnto_of_le {n : Nat} (h : 10 ≤ n) (tail : List Char) :
    digitsOnto n tail = digitsOnto (n / 10) (digitChar (n % 10) :: tail) := by
  rw [digitsOnto, if_neg (by omega)]

/-- Writing splits off the tail. -/
theorem digitsOnto_eq_append (n : Nat) (tail : List Char) :
    digitsOnto n tail = digits n ++ tail := by
  unfold digits
  induction n using Nat.strongRecOn generalizing tail with
  | ind n ih =>
    by_cases h : n < 10
    · simp [digitsOnto_of_lt h]
    · have hlt : n / 10 < n := by omega
      have hge : 10 ≤ n := by omega
      rw [digitsOnto_of_le hge tail, digitsOnto_of_le hge [], ih _ hlt,
        ih _ hlt [digitChar (n % 10)]]
      simp

theorem digits_of_lt {n : Nat} (h : n < 10) : digits n = [digitChar n] :=
  digitsOnto_of_lt h []

theorem digits_of_le {n : Nat} (h : 10 ≤ n) :
    digits n = digits (n / 10) ++ [digitChar (n % 10)] := by
  rw [digits, digitsOnto_of_le h, digitsOnto_eq_append]

/-- Every character written is a digit. -/
theorem isDigit_of_mem_digits (n : Nat) : ∀ c ∈ digits n, isDigit c = true := by
  induction n using Nat.strongRecOn with
  | ind n ih =>
    by_cases h : n < 10
    · simp [digits_of_lt h, isDigit_digitChar h]
    · rw [digits_of_le (by omega)]
      intro c hc
      rcases List.mem_append.mp hc with hc | hc
      · exact ih (n / 10) (by omega) c hc
      · rw [List.mem_singleton.mp hc]
        exact isDigit_digitChar (by omega)

/-- Reading the digits of a number gives the number. -/
theorem ofDigits_digits (n : Nat) : ofDigits (digits n) = n := by
  induction n using Nat.strongRecOn with
  | ind n ih =>
    by_cases h : n < 10
    · simp [digits_of_lt h, ofDigits, ofDigitsFrom, digitValue_digitChar h]
    · have hread := ih (n / 10) (by omega)
      rw [digits_of_le (by omega)]
      unfold ofDigits ofDigitsFrom at *
      rw [List.foldl_append, hread]
      simp only [List.foldl_cons, List.foldl_nil, digitValue_digitChar (show n % 10 < 10 by omega)]
      omega

end Cartograph.Text.Decimal
