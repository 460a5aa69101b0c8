import Cartograph.Text.Utf8
import Mathlib.Data.String.Basic

/-!
# Text, written as bytes and read

Every character is read back from its bytes, whatever bytes follow (`Utf8.exists_takeChar`). Main
statement: a text is read back from its bytes (`Utf8.decode?_encode`).
-/

namespace Cartograph.Text.Utf8

/-! ## Bytes -/

/-- A number that fits a byte is the value of the byte. -/
theorem toNat_ofNat {n : Nat} (h : n < 256) : (UInt8.ofNat n).toNat = n :=
  UInt8.toNat_ofNat_of_lt' h

theorem ofNat_lt_iff {n : Nat} (h : n < 256) {b : UInt8} : UInt8.ofNat n < b ↔ n < b.toNat := by
  rw [UInt8.lt_iff_toNat_lt, toNat_ofNat h]

theorem ofNat_le_iff {n : Nat} (h : n < 256) {b : UInt8} : UInt8.ofNat n ≤ b ↔ n ≤ b.toNat := by
  rw [UInt8.le_iff_toNat_le, toNat_ofNat h]

theorem le_ofNat_iff {n : Nat} (h : n < 256) {b : UInt8} : b ≤ UInt8.ofNat n ↔ b.toNat ≤ n := by
  rw [UInt8.le_iff_toNat_le, toNat_ofNat h]

theorem ofNat_eq_iff {n : Nat} (h : n < 256) {b : UInt8} : UInt8.ofNat n = b ↔ n = b.toNat := by
  rw [← UInt8.toNat_inj, toNat_ofNat h]

/-- A continuation byte holds one digit to the base 64. -/
def tailByte (digit : Nat) : UInt8 :=
  UInt8.ofNat (digit % 64 + 128)

/-- Where a continuation byte stands among all bytes is where its digit stands. -/
theorem between_tailByte {low high : UInt8} {digit : Nat} (hlow : low.toNat ≤ digit % 64 + 128)
    (hhigh : digit % 64 + 128 ≤ high.toNat) :
    (low ≤ tailByte digit && tailByte digit ≤ high) = true := by
  have hbyte : digit % 64 + 128 < 256 := by omega
  rw [Bool.and_eq_true, decide_eq_true_eq, decide_eq_true_eq]
  exact ⟨(le_ofNat_iff hbyte).mpr hlow, (ofNat_le_iff hbyte).mpr hhigh⟩

theorem isTail_tailByte (digit : Nat) : isTail (tailByte digit) = true := by
  have hhigh : digit % 64 + 128 ≤ 191 := by omega
  exact between_tailByte (Nat.le_add_left 128 _) hhigh

theorem tailBits_tailByte (digit : Nat) : tailBits (tailByte digit) = digit % 64 := by
  rw [tailBits, tailByte, toNat_ofNat (by omega)]
  omega

/-- A digit that may follow a lead byte: no character has a shorter form, none is a surrogate and
none is past the last. -/
def Follows (lead digit : Nat) : Prop :=
  (lead = 224 → 32 ≤ digit % 64) ∧ (lead = 237 → digit % 64 < 32) ∧
    (lead = 240 → 16 ≤ digit % 64) ∧ (lead = 244 → digit % 64 < 16)

theorem isSecond_tailByte {lead digit : Nat} (hlead : lead < 256) (h : Follows lead digit) :
    isSecond (UInt8.ofNat lead) (tailByte digit) = true := by
  obtain ⟨hshort, hsurrogate, hshorter, hlast⟩ := h
  unfold isSecond
  simp only [ofNat_eq_iff hlead]
  split_ifs with h₁ h₂ h₃ h₄
  · have hlow : 32 ≤ digit % 64 := hshort h₁
    exact between_tailByte (show 160 ≤ _ by omega) (show _ ≤ 191 by omega)
  · have hhigh : digit % 64 < 32 := hsurrogate h₂
    exact between_tailByte (show 128 ≤ _ by omega) (show _ ≤ 159 by omega)
  · have hlow : 16 ≤ digit % 64 := hshorter h₃
    exact between_tailByte (show 144 ≤ _ by omega) (show _ ≤ 191 by omega)
  · have hhigh : digit % 64 < 16 := hlast h₄
    exact between_tailByte (show 128 ≤ _ by omega) (show _ ≤ 143 by omega)
  · exact isTail_tailByte digit

/-! ## One character -/

section

variable {lead : Nat} (rest : List UInt8)

theorem takeChar_one (h : lead < 128) :
    takeChar (UInt8.ofNat lead) rest = (some (Char.ofNat lead), rest) := by
  have hlead : lead < 256 := by omega
  rw [takeChar.eq_def, if_pos ((ofNat_lt_iff hlead (b := 128)).mpr h), toNat_ofNat hlead]

theorem takeChar_two (hlow : 194 ≤ lead) (hhigh : lead < 224) (digit : Nat) :
    takeChar (UInt8.ofNat lead) (tailByte digit :: rest)
      = (some (Char.ofNat (lead % 32 * 64 + digit % 64)), rest) := by
  have hlead : lead < 256 := by omega
  have hone : ¬ lead < 128 := by omega
  have hstray : ¬ lead < 194 := by omega
  rw [takeChar.eq_def, if_neg fun hlt => hone ((ofNat_lt_iff hlead (b := 128)).mp hlt),
    if_neg fun hlt => hstray ((ofNat_lt_iff hlead (b := 194)).mp hlt),
    if_pos ((ofNat_lt_iff hlead (b := 224)).mpr hhigh)]
  simp only [isTail_tailByte, if_true, toNat_ofNat hlead, tailBits_tailByte]

theorem takeChar_three (hlow : 224 ≤ lead) (hhigh : lead < 240) {second : Nat}
    (h : Follows lead second) (third : Nat) :
    takeChar (UInt8.ofNat lead) (tailByte second :: tailByte third :: rest)
      = (some (Char.ofNat ((lead % 16 * 64 + second % 64) * 64 + third % 64)), rest) := by
  have hlead : lead < 256 := by omega
  have hone : ¬ lead < 128 := by omega
  have hstray : ¬ lead < 194 := by omega
  have htwo : ¬ lead < 224 := by omega
  rw [takeChar.eq_def, if_neg fun hlt => hone ((ofNat_lt_iff hlead (b := 128)).mp hlt),
    if_neg fun hlt => hstray ((ofNat_lt_iff hlead (b := 194)).mp hlt),
    if_neg fun hlt => htwo ((ofNat_lt_iff hlead (b := 224)).mp hlt),
    if_pos ((ofNat_lt_iff hlead (b := 240)).mpr hhigh)]
  simp only [isSecond_tailByte hlead h, isTail_tailByte, if_true, toNat_ofNat hlead,
    tailBits_tailByte]

theorem takeChar_four (hlow : 240 ≤ lead) (hhigh : lead < 245) {second : Nat}
    (h : Follows lead second) (third fourth : Nat) :
    takeChar (UInt8.ofNat lead) (tailByte second :: tailByte third :: tailByte fourth :: rest)
      = (some (Char.ofNat (((lead % 8 * 64 + second % 64) * 64 + third % 64) * 64
          + fourth % 64)), rest) := by
  have hlead : lead < 256 := by omega
  have hone : ¬ lead < 128 := by omega
  have hstray : ¬ lead < 194 := by omega
  have htwo : ¬ lead < 224 := by omega
  have hthree : ¬ lead < 240 := by omega
  rw [takeChar.eq_def, if_neg fun hlt => hone ((ofNat_lt_iff hlead (b := 128)).mp hlt),
    if_neg fun hlt => hstray ((ofNat_lt_iff hlead (b := 194)).mp hlt),
    if_neg fun hlt => htwo ((ofNat_lt_iff hlead (b := 224)).mp hlt),
    if_neg fun hlt => hthree ((ofNat_lt_iff hlead (b := 240)).mp hlt),
    if_pos ((ofNat_lt_iff hlead (b := 245)).mpr hhigh)]
  simp only [isSecond_tailByte hlead h, isTail_tailByte, if_true, toNat_ofNat hlead,
    tailBits_tailByte]

end

/-- **A character is read from its bytes**, and nothing more is taken. -/
theorem exists_takeChar (c : Char) (rest : List UInt8) : ∃ lead more,
    String.utf8EncodeChar c = lead :: more ∧ takeChar lead (more ++ rest) = (some c, rest) := by
  have hcode : c.toNat < 0xd800 ∨ 0xdfff < c.toNat ∧ c.toNat < 0x110000 := c.valid
  have hread {n : Nat} (h : n = c.toNat) : Char.ofNat n = c := by
    rw [h, Char.ofNat_toNat]
  have hval : c.val.toNat = c.toNat := rfl
  simp only [String.utf8EncodeChar, hval]
  -- one case for each length; the bounds of the case keep the lead byte in its range
  split_ifs with h₁ h₂ h₃
  · refine ⟨_, _, rfl, (takeChar_one _ (by omega)).trans ?_⟩
    rw [hread rfl]
    rfl
  · refine ⟨_, _, rfl, (takeChar_two rest (by omega) (by omega) c.toNat).trans ?_⟩
    rw [hread (by omega)]
  · refine ⟨_, _, rfl, (takeChar_three rest (by omega) (by omega)
      (by unfold Follows; omega) c.toNat).trans ?_⟩
    rw [hread (by omega)]
  · refine ⟨_, _, rfl, (takeChar_four rest (by omega) (by omega)
      (by unfold Follows; omega) (c.toNat / 64) c.toNat).trans ?_⟩
    rw [hread (by omega)]

/-! ## Texts -/

/-- The characters that have been read stand in front, the last of them first. -/
theorem decodeOnto?_flatMap (acc cs : List Char) :
    decodeOnto? acc (cs.flatMap String.utf8EncodeChar) = some (acc.reverse ++ cs) := by
  induction cs generalizing acc with
  | nil => rw [List.flatMap_nil, decodeOnto?, List.append_nil]
  | cons c cs ih =>
      obtain ⟨lead, more, hbytes, htake⟩ := exists_takeChar c (cs.flatMap String.utf8EncodeChar)
      rw [List.flatMap_cons, hbytes, List.cons_append, decodeOnto?, htake]
      simp only
      rw [ih, List.reverse_cons, List.append_assoc, List.singleton_append]

/-- **A text is read back from its bytes.** -/
theorem decode?_encode (s : String) : decode? (encode s) = some s.toList := by
  rw [decode?, encode, decodeOnto?_flatMap, List.reverse_nil, List.nil_append]

end Cartograph.Text.Utf8
