import Cartograph.Text.Utf8
import Mathlib.Tactic.SplitIfs

/-!
# Bytes that are cut off

A file may be read up to a number of bytes, and the last of them may stand in the middle of a
character. Main statement: the text of the bytes in front of a cut is the front of the whole text,
behind which one replacement character may stand (`Utf8.exists_decodeLossy_append`).
-/

namespace Cartograph.Text.Utf8

/-! ## Induction over characters -/

/-- What holds of no bytes, and of some as soon as it holds of those behind the first character or
malformed run, holds of all bytes. -/
@[elab_as_elim]
theorem charInduction {motive : List UInt8 → Prop} (nil : motive [])
    (cons : ∀ lead rest, motive (takeChar lead rest).2 → motive (lead :: rest))
    (bytes : List UInt8) : motive bytes := by
  generalize hlength : bytes.length = n
  induction n using Nat.strongRecOn generalizing bytes with
  | ind n ih =>
    cases bytes with
    | nil => exact nil
    | cons lead rest =>
        have hshort := takeChar_length_le lead rest
        refine cons lead rest (ih _ ?_ _ rfl)
        rw [← hlength, List.length_cons]
        omega

/-! ## Texts -/

/-- The characters that have been read stand in front, the last of them first. -/
theorem decodeLossyOnto_eq (acc : List Char) (bytes : List UInt8) :
    decodeLossyOnto acc bytes = acc.reverse ++ decodeLossy bytes := by
  rw [decodeLossy]
  induction bytes using charInduction generalizing acc with
  | nil => simp [decodeLossyOnto]
  | cons lead rest ih =>
      rw [decodeLossyOnto, decodeLossyOnto, ih, ih [_]]
      simp

theorem decodeLossy_nil : decodeLossy [] = [] := by
  rw [decodeLossy, decodeLossyOnto, List.reverse_nil]

theorem decodeLossy_cons (b : UInt8) (rest : List UInt8) : decodeLossy (b :: rest)
    = (takeChar b rest).1.getD replacement :: decodeLossy (takeChar b rest).2 := by
  rw [decodeLossy, decodeLossyOnto, decodeLossyOnto_eq]
  rfl

/-! ## Cuts -/

/-- A character is read as if nothing had been cut off, or the cut is in the middle of it. -/
theorem takeChar_append (lead : UInt8) (kept cut : List UInt8) :
    takeChar lead (kept ++ cut) = ((takeChar lead kept).1, (takeChar lead kept).2 ++ cut) ∨
      takeChar lead kept = (none, []) := by
  unfold takeChar
  rcases kept with _ | ⟨b, _ | ⟨c, _ | ⟨d, kept⟩⟩⟩
  all_goals simp only [List.nil_append, List.cons_append]
  all_goals split_ifs <;> simp

/-- **Bytes in front of a cut**: their text stands in front of the whole text, but for one
replacement character where the cut is in the middle of a character. -/
theorem exists_decodeLossy_append (kept cut : List UInt8) :
    ∃ front back broken, decodeLossy (kept ++ cut) = front ++ back ∧
      decodeLossy kept = front ++ broken ∧ ∀ c ∈ broken, c = replacement := by
  induction kept using charInduction with
  | nil => exact ⟨[], decodeLossy cut, [], rfl, decodeLossy_nil, by simp⟩
  | cons b rest ih =>
      rcases takeChar_append b rest cut with hwhole | hbroken
      · obtain ⟨front, back, broken, hall, hkept, hc⟩ := ih
        refine ⟨(takeChar b rest).1.getD replacement :: front, back, broken, ?_, ?_, hc⟩
        · rw [List.cons_append, decodeLossy_cons, hwhole, hall, List.cons_append]
        · rw [decodeLossy_cons, hkept, List.cons_append]
      · -- The character is cut in two, and nothing stands behind it.
        refine ⟨[], decodeLossy (b :: rest ++ cut), [replacement], rfl, ?_, by simp⟩
        rw [decodeLossy_cons, hbroken, decodeLossy_nil]
        rfl

end Cartograph.Text.Utf8
