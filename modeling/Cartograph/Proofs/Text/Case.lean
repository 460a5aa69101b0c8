import Cartograph.Proofs.Text
import Cartograph.Proofs.Text.Names
import Cartograph.Text.Case

/-!
# The case of ASCII letters

The lowercase form of a text does not depend on the case of its ASCII letters, although what becomes
of a capital sigma depends on the characters around it: a letter counts as a letter there in either
case. Main statement: `lower_asciiLowercase`.
-/

namespace Cartograph.Text

/-! ## Single characters -/

/-- What is the same of every ASCII capital and its small letter is the same of every character and
its ASCII lowercase form. -/
theorem eq_of_asciiLower {α : Type} {f : Char → α}
    (h : ∀ k : Fin 26, f (asciiLower (Char.ofNat (65 + k.val))) = f (Char.ofNat (65 + k.val)))
    (c : Char) : f (asciiLower c) = f c := by
  by_cases hcapital : 'A' ≤ c ∧ c ≤ 'Z'
  · have hlow : 65 ≤ c.toNat := hcapital.1
    have hhigh : c.toNat ≤ 90 := hcapital.2
    have hcode : 65 + (c.toNat - 65) = c.toNat := by omega
    have hletter := h ⟨c.toNat - 65, by omega⟩
    rwa [hcode, Char.ofNat_toNat] at hletter
  · rw [asciiLower, if_neg hcapital]

theorem lowerChar_asciiLower (c : Char) : lowerChar (asciiLower c) = lowerChar c :=
  eq_of_asciiLower (by decide) c

/-- The letters of ASCII. -/
def asciiLetters : CodeRanges := #[(0x41, 0x5a), (0x61, 0x7a)]

/-- No letter of ASCII is passed over in the search for a neighbour. -/
theorem caseIgnorable_asciiLower (c : Char) :
    caseIgnorableRanges.has (asciiLower c) = caseIgnorableRanges.has c := by
  have hapart : caseIgnorableRanges.Apart asciiLetters := by decide +kernel
  have hletters : ∀ k : Fin 26, asciiLetters.has (asciiLower (Char.ofNat (65 + k.val))) = true
      ∧ asciiLetters.has (Char.ofNat (65 + k.val)) = true := by decide +kernel
  refine eq_of_asciiLower (fun k => ?_) c
  rw [hapart.not_has (hletters k).1, hapart.not_has (hletters k).2]

theorem cased_asciiLower (c : Char) : casedRanges.has (asciiLower c) = casedRanges.has c :=
  eq_of_asciiLower (by decide +kernel) c

/-- A character that is no small ASCII letter stays apart from all others. -/
theorem asciiLower_eq_iff {c d : Char} (h : ∀ k : Fin 26, Char.ofNat (65 + k.val) ≠ d
    ∧ asciiLower (Char.ofNat (65 + k.val)) ≠ d) : asciiLower c = d ↔ c = d := by
  refine Eq.to_iff (eq_of_asciiLower (f := fun c => c = d) (fun k => ?_) c)
  rw [eq_false (h k).1, eq_false (h k).2]

/-! ## Texts -/

theorem casedNext_cons (c : Char) (cs : List Char) : casedNext (c :: cs)
    = if caseIgnorableRanges.has c then casedNext cs else casedRanges.has c := by
  cases h : caseIgnorableRanges.has c with
  | true => simp only [casedNext, List.dropWhile_cons, h, if_true]
  | false => simp only [casedNext, List.dropWhile_cons, h, Bool.false_eq_true, if_false]

/-- Whether a cased letter comes next does not depend on its case. -/
theorem casedNext_map (cs : List Char) : casedNext (cs.map asciiLower) = casedNext cs := by
  induction cs with
  | nil => rfl
  | cons c cs ih =>
      rw [List.map_cons, casedNext_cons, casedNext_cons, ih, caseIgnorable_asciiLower,
        cased_asciiLower]

theorem lowerFrom_map (before cs : List Char) :
    lowerFrom (before.map asciiLower) (cs.map asciiLower) = lowerFrom before cs := by
  induction cs generalizing before with
  | nil => rfl
  | cons c cs ih =>
      have hsigma : asciiLower c = 'Σ' ↔ c = 'Σ' := asciiLower_eq_iff (by decide)
      have hdotted : asciiLower c = 'İ' ↔ c = 'İ' := asciiLower_eq_iff (by decide)
      rw [List.map_cons, lowerFrom, lowerFrom, ← List.map_cons, ih, lowerSigma, lowerSigma,
        casedNext_map, casedNext_map, lowerChar_asciiLower]
      simp only [hsigma, hdotted]

/-- **The lowercase form does not see the case of ASCII letters.** -/
theorem lower_asciiLowercase (s : String) : lower (asciiLowercase s) = lower s := by
  rw [lower, asciiLowercase, String.toList_ofList, lower]
  exact congrArg String.ofList (lowerFrom_map [] s.toList)

/-- A separator that is no letter parts a text in the same places whatever the case of its
letters. -/
theorem splitText_asciiLowercase {sep : Char} (hsep : ∀ c, asciiLower c = sep ↔ c = sep)
    (s : String) : splitText sep (asciiLowercase s) = (splitText sep s).map asciiLowercase := by
  have hpieces : ∀ cs : List Char,
      pieces sep (cs.map asciiLower) = (pieces sep cs).map (List.map asciiLower) := by
    intro cs
    induction cs with
    | nil => rfl
    | cons c cs ih =>
        rw [List.map_cons, pieces, pieces, ih]
        simp only [hsep]
        split
        · rfl
        · cases pieces sep cs <;> rfl
  rw [splitText, asciiLowercase, String.toList_ofList, hpieces, splitText, List.map_map,
    List.map_map]
  refine List.map_congr_left fun piece _ => ?_
  rw [Function.comp_apply, Function.comp_apply, asciiLowercase, String.toList_ofList]

/-- The texts differ in nothing but the case of ASCII letters. -/
def SameLetters (s t : String) : Prop :=
  asciiLowercase s = asciiLowercase t

instance (s t : String) : Decidable (SameLetters s t) :=
  inferInstanceAs (Decidable (asciiLowercase s = asciiLowercase t))

theorem SameLetters.lower_eq {s t : String} (h : SameLetters s t) : lower s = lower t := by
  rw [← lower_asciiLowercase s, h, lower_asciiLowercase]

end Cartograph.Text
