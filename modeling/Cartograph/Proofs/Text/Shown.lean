import Cartograph.Proofs.Text
import Cartograph.Proofs.Text.Lossy
import Cartograph.Proofs.Text.Utf8
import Cartograph.Text.Raw

/-!
# What is shown of bytes

An ASCII byte is shown as its character wherever it stands: no other character has it among its
bytes, and a malformed run ends in front of it. So what is shown of bytes is cut at an ASCII
character as the bytes are (`Utf8.pieces_decodeLossy`). Bytes that are a text are shown as it
(`RawText.shown_ofText`), and only such bytes are told apart by what is shown of them.
-/

namespace Cartograph

namespace Text.Utf8

/-! ## ASCII bytes -/

theorem toNat_charOfNat {n : Nat} (h : n.isValidChar) : (Char.ofNat n).toNat = n := by
  rw [Char.ofNat, dif_pos h]
  rfl

/-- The character of an ASCII byte. -/
def asciiChar (b : UInt8) : Char :=
  Char.ofNat b.toNat

section

variable {b : UInt8}

theorem toNat_asciiChar (h : b < 0x80) : (asciiChar b).toNat = b.toNat := by
  have hcode : b.toNat < 128 := UInt8.lt_iff_toNat_lt.mp h
  exact toNat_charOfNat (Or.inl (by omega))

theorem isTail_of_ascii (h : b < 0x80) : isTail b = false := by
  have hlow : ¬ 0x80 ≤ b := UInt8.not_le.mpr h
  simp [isTail, hlow]

theorem isSecond_of_ascii (h : b < 0x80) (lead : UInt8) : isSecond lead b = false := by
  have hcode : b.toNat < 128 := UInt8.lt_iff_toNat_lt.mp h
  have hlow (low : UInt8) (hlow : 128 ≤ low.toNat) : ¬ low ≤ b := by
    rw [UInt8.le_iff_toNat_le]
    omega
  unfold isSecond
  split_ifs
  · simp [hlow 0xa0 (by decide)]
  · simp [hlow 0x80 (by decide)]
  · simp [hlow 0x90 (by decide)]
  · simp [hlow 0x80 (by decide)]
  · exact isTail_of_ascii h

/-- An ASCII byte is a character of its own. -/
theorem takeChar_ascii (h : b < 0x80) (rest : List UInt8) :
    takeChar b rest = (some (asciiChar b), rest) := by
  rw [takeChar.eq_def, if_pos h, asciiChar]

/-- **What has begun ends in front of an ASCII byte** at the latest. -/
theorem takeChar_append_ascii (h : b < 0x80) (lead : UInt8) (kept rest : List UInt8) :
    takeChar lead (kept ++ b :: rest)
      = ((takeChar lead kept).1, (takeChar lead kept).2 ++ b :: rest) := by
  have htail := isTail_of_ascii h
  have hsecond := isSecond_of_ascii h lead
  unfold takeChar
  rcases kept with _ | ⟨c, _ | ⟨d, _ | ⟨e, kept⟩⟩⟩
  all_goals
    simp only [List.nil_append, List.cons_append, htail, hsecond, Bool.false_eq_true, if_false]
  all_goals split_ifs <;> rfl

theorem decodeLossy_append_ascii (h : b < 0x80) (kept rest : List UInt8) :
    decodeLossy (kept ++ b :: rest) = decodeLossy kept ++ asciiChar b :: decodeLossy rest := by
  induction kept using charInduction with
  | nil =>
      rw [List.nil_append, decodeLossy_cons, takeChar_ascii h, decodeLossy_nil]
      rfl
  | cons lead kept ih =>
      rw [List.cons_append, decodeLossy_cons, takeChar_append_ascii h, ih, decodeLossy_cons,
        List.cons_append]

/-- What follows a lead byte keeps the character in its range. -/
theorem follows_of_isSecond {lead b : UInt8} (h : isSecond lead b = true) :
    Follows lead.toNat b.toNat := by
  have heq {k : UInt8} : lead = k ↔ lead.toNat = k.toNat := UInt8.toNat_inj.symm
  unfold isSecond at h
  simp only [heq] at h
  simp only [Follows]
  split_ifs at h
  all_goals
    simp only [isTail, Bool.and_eq_true, decide_eq_true_eq, UInt8.le_iff_toNat_le,
      UInt8.reduceToNat] at *
    omega

/-- A character of more than one byte is no ASCII character. -/
theorem le_toNat_of_takeChar {lead : UInt8} {rest : List UInt8} {c : Char} (hlead : ¬ lead < 0x80)
    (h : (takeChar lead rest).1 = some c) : 128 ≤ c.toNat := by
  have hcode {n : Nat} (hlow : 128 ≤ n) (hvalid : n < 0xd800 ∨ 0xdfff < n ∧ n < 0x110000) :
      128 ≤ (Char.ofNat n).toNat := by
    rwa [toNat_charOfNat hvalid]
  unfold takeChar at h
  rw [if_neg hlead] at h
  simp only [UInt8.lt_iff_toNat_lt, UInt8.reduceToNat] at h hlead
  repeat' split at h
  all_goals cases h
  -- what is left are characters of two, of three and of four bytes
  all_goals simp only [tailBits]
  · exact hcode (by omega) (Or.inl (by omega))
  · have hfollows := follows_of_isSecond ‹isSecond lead _ = true›
    simp only [Follows] at hfollows
    exact hcode (by omega) (by omega)
  · have hfollows := follows_of_isSecond ‹isSecond lead _ = true›
    simp only [Follows] at hfollows
    exact hcode (by omega) (by omega)

theorem asciiChar_injective {b c : UInt8} (hb : b < 0x80) (hc : c < 0x80)
    (h : asciiChar b = asciiChar c) : b = c := by
  rw [← UInt8.toNat_inj, ← toNat_asciiChar hb, ← toNat_asciiChar hc, h]

/-- The bytes behind a character are some of those behind its lead byte. -/
theorem suffix_takeChar (lead : UInt8) (rest : List UInt8) : (takeChar lead rest).2 <:+ rest := by
  unfold takeChar
  repeat' split
  all_goals simp [List.suffix_cons_iff]

/-- What begins with no ASCII byte is not shown as an ASCII character: neither another character is
one, nor is the one for a malformed run. -/
theorem lead_lt_of_getD_eq (h : b < 0x80) {lead : UInt8} {rest : List UInt8}
    (hshown : (takeChar lead rest).1.getD replacement = asciiChar b) : lead < 0x80 := by
  by_contra hlead
  have hsmall : (asciiChar b).toNat < 128 :=
    (toNat_asciiChar h).trans_lt (UInt8.lt_iff_toNat_lt.mp h)
  have hlarge : 128 ≤ ((takeChar lead rest).1.getD replacement).toNat := by
    cases hchar : (takeChar lead rest).1 with
    | none => exact (by decide : 128 ≤ replacement.toNat)
    | some c => exact le_toNat_of_takeChar hlead hchar
  rw [hshown] at hlarge
  exact absurd hlarge (Nat.not_le.mpr hsmall)

/-- **An ASCII character is shown only where its byte is.** -/
theorem mem_of_asciiChar_mem (h : b < 0x80) {bytes : List UInt8}
    (hmem : asciiChar b ∈ decodeLossy bytes) : b ∈ bytes := by
  induction bytes using charInduction with
  | nil =>
      rw [decodeLossy_nil] at hmem
      cases hmem
  | cons lead rest ih =>
      rw [decodeLossy_cons] at hmem
      rcases List.mem_cons.mp hmem with hfirst | hlater
      · have hlead : lead < 0x80 := lead_lt_of_getD_eq h hfirst.symm
        rw [takeChar_ascii hlead, Option.getD_some] at hfirst
        rw [asciiChar_injective h hlead hfirst]
        exact List.mem_cons_self
      · exact List.mem_cons_of_mem _ ((suffix_takeChar lead rest).subset (ih hlater))

theorem decodeLossy_eq_nil_iff {bytes : List UInt8} : decodeLossy bytes = [] ↔ bytes = [] := by
  cases bytes with
  | nil => simp [decodeLossy_nil]
  | cons lead rest => simp [decodeLossy_cons]

/-- **Bytes that are shown as ASCII bytes** are these bytes. -/
theorem eq_of_decodeLossy_eq {ascii : List UInt8} (hascii : ∀ b ∈ ascii, b < 0x80)
    {bytes : List UInt8} (h : decodeLossy bytes = ascii.map asciiChar) : bytes = ascii := by
  induction bytes using charInduction generalizing ascii with
  | nil => simpa [decodeLossy_nil, eq_comm] using h
  | cons lead rest ih =>
      cases ascii with
      | nil => simp [decodeLossy_cons] at h
      | cons b more =>
          obtain ⟨hb, hmore⟩ := List.forall_mem_cons.mp hascii
          rw [decodeLossy_cons, List.map_cons, List.cons.injEq] at h
          have hlead : lead < 0x80 := lead_lt_of_getD_eq hb h.1
          rw [takeChar_ascii hlead] at h ih
          have hrest : rest = more := ih hmore h.2
          rw [asciiChar_injective hlead hb h.1, hrest]

/-! ## Cutting -/

/-- What is shown of glued parts is glued from what is shown of them. -/
theorem decodeLossy_glue (h : b < 0x80) (parts : List (List UInt8)) :
    decodeLossy (glue b parts) = glue (asciiChar b) (parts.map decodeLossy) := by
  induction parts with
  | nil => exact decodeLossy_nil
  | cons part rest ih =>
      by_cases hrest : rest = []
      · subst hrest
        rfl
      · rw [glue_cons hrest, decodeLossy_append_ascii h, ih, List.map_cons,
          glue_cons (by simpa using hrest)]

/-- **What is shown is cut as the bytes are.** -/
theorem pieces_decodeLossy (h : b < 0x80) (bytes : List UInt8) :
    pieces (asciiChar b) (decodeLossy bytes) = (pieces b bytes).map decodeLossy := by
  conv_lhs => rw [← glue_pieces b bytes, decodeLossy_glue h]
  refine pieces_glue (by simpa using pieces_ne_nil b bytes) fun part hpart hmem => ?_
  obtain ⟨piece, hpiece, rfl⟩ := List.mem_map.mp hpart
  exact not_mem_of_mem_pieces hpiece (mem_of_asciiChar_mem h hmem)

end

/-! ## Texts -/

/-- **The bytes of a text are shown as the text.** -/
theorem decodeLossy_flatMap (cs : List Char) :
    decodeLossy (cs.flatMap String.utf8EncodeChar) = cs := by
  induction cs with
  | nil => exact decodeLossy_nil
  | cons c cs ih =>
      obtain ⟨lead, more, hbytes, htake⟩ := exists_takeChar c (cs.flatMap String.utf8EncodeChar)
      rw [List.flatMap_cons, hbytes, List.cons_append, decodeLossy_cons, htake, ih]
      rfl

end Text.Utf8

namespace RawText

open Text Utf8

/-- **A text is shown as itself.** -/
@[simp] theorem shown_ofText (s : String) : (ofText s).shown = s := by
  rw [shown, ofText, encode, decodeLossy_flatMap, String.ofList_toList]

theorem ofText_injective {s t : String} (h : ofText s = ofText t) : s = t := by
  rw [← shown_ofText s, h, shown_ofText]

/-- A text begins with the character of its first byte if that is an ASCII byte. -/
theorem head?_toList_of_head?_bytes {s : String} {b : UInt8} (hb : b < 0x80)
    (h : (ofText s).bytes.head? = some b) : s.toList.head? = some (Text.Utf8.asciiChar b) := by
  obtain ⟨rest, hrest⟩ := List.head?_eq_some_iff.mp h
  have hchars := Text.Utf8.decodeLossy_append_ascii hb [] rest
  rw [List.nil_append, ← hrest] at hchars
  rw [← shown_ofText s, shown, String.toList_ofList, hchars, Text.Utf8.decodeLossy_nil,
    List.nil_append, List.head?_cons]

/-- The bytes are those of a text. -/
def IsText (raw : RawText) : Prop :=
  ofText raw.shown = raw

instance (raw : RawText) : Decidable raw.IsText :=
  inferInstanceAs (Decidable (ofText raw.shown = raw))

end RawText

end Cartograph
