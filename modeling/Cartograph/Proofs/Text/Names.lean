import Cartograph.Text.Blank
import Cartograph.Text.Word

/-!
# Names in texts

What may stand for a name in a program is an identifier; what a text pattern takes for a name is a
run of word characters. Neither has a colon in it, so a name can be told from what stands in front
of the colon before it; and no word has white space in it (`isWord_of_isBlank`).
-/

namespace Cartograph.Text

/-- The text can stand for a name in a program. -/
def isIdentifier (name : String) : Bool :=
  match name.toList with
  | [] => false
  | c :: cs => isIdentifierStart c && cs.all isIdentifierPart

theorem isIdentifierPart_of_mem {name : String} (h : isIdentifier name = true) {c : Char}
    (hc : c ∈ name.toList) : isIdentifierPart c = true := by
  unfold isIdentifier at h
  split at h
  · cases h
  · rename_i first rest hlist
    rw [Bool.and_eq_true] at h
    rw [hlist] at hc
    rcases List.mem_cons.mp hc with rfl | hc
    · exact isIdentifierPart_of_start h.1
    · exact List.all_eq_true.mp h.2 c hc

/-- What no identifier holds is not in one. -/
theorem not_mem_of_isIdentifier {name : String} (h : isIdentifier name = true) {c : Char}
    (hc : isIdentifierPart c = false) : c ∉ name.toList := by
  intro hmem
  rw [isIdentifierPart_of_mem h hmem] at hc
  cases hc

theorem isIdentifierPart_colon : isIdentifierPart ':' = false := by
  decide

theorem isWord_colon : isWord ':' = false := by
  decide

/-! ## White space -/

/-- No code lies in ranges of both tables. -/
def CodeRanges.Apart (ranges others : CodeRanges) : Prop :=
  ∀ range ∈ ranges.toList, ∀ other ∈ others.toList, range.2 < other.1 ∨ other.2 < range.1

instance (ranges others : CodeRanges) : Decidable (ranges.Apart others) :=
  inferInstanceAs (Decidable (∀ range ∈ ranges.toList, ∀ other ∈ others.toList, _))

theorem CodeRanges.Apart.not_has {ranges others : CodeRanges} (h : ranges.Apart others) {c : Char}
    (hc : others.has c = true) : ranges.has c = false := by
  obtain ⟨other, hother, hfrom, hto⟩ := CodeRanges.has_iff.mp hc
  refine Bool.eq_false_iff.mpr fun hhas => ?_
  obtain ⟨range, hrange, hfrom', hto'⟩ := CodeRanges.has_iff.mp hhas
  have := h range (Array.mem_toList_iff.mpr hrange) other (Array.mem_toList_iff.mpr hother)
  omega

/-- White space is no word character. -/
theorem isWord_of_isBlank {c : Char} (h : isBlank c = true) : isWord c = false := by
  by_cases hc : c.toNat < 0x80
  · have hascii : ∀ n : Fin 0x80, isBlank (.ofNat n) = true → isWord (.ofNat n) = false := by
      decide
    have hthis := hascii ⟨c.toNat, hc⟩
    rw [Char.ofNat_toNat] at hthis
    exact hthis h
  · have hblank : blankRanges.has c = true := by
      rwa [isBlank, if_neg hc] at h
    have hstart : identifierStartRanges.Apart blankRanges := by decide +kernel
    have htail : identifierTailRanges.Apart blankRanges := by decide +kernel
    have hword : wordOnlyRanges.Apart blankRanges := by decide +kernel
    rw [isWord, if_neg hc, isIdentifierPart, if_neg hc, hstart.not_has hblank,
      htail.not_has hblank, hword.not_has hblank]
    rfl

end Cartograph.Text
