import Cartograph.Proofs.Text.Case
import Cartograph.Text.Blank
import Cartograph.Text.Decimal
import Mathlib.Data.List.Induction
import Mathlib.Data.List.TakeWhile
import Mathlib.Data.Nat.Digits.Defs

/-!
# Numbers and words in text

What a text has to look like to be read as a number or as one of some words. A number is digits,
before which one plus sign may stand (`Decimal.below?_eq_some_iff`); a word may have white space
around it and its letters any case (`asciiLowercase_trim_mem_iff`).
-/

namespace Cartograph.Text

/-! ## Numbers -/

namespace Decimal

/-- The text is the digits, of which there is at least one, or the digits behind a plus sign. -/
def IsNumeral (text : String) (ds : List Char) : Prop :=
  ds ≠ [] ∧ (∀ c ∈ ds, isDigit c = true) ∧ (text.toList = ds ∨ text.toList = '+' :: ds)

/-- The number that digits denote by their places: the last counts ones, the one before it tens. -/
def placeValue (ds : List Char) : Nat :=
  Nat.ofDigits 10 (ds.reverse.map digitValue)

/-- Reading digits from the left gives the number that they denote by their places. -/
theorem ofDigits_eq_placeValue (ds : List Char) : ofDigits ds = placeValue ds := by
  induction ds using List.reverseRecOn with
  | nil => rfl
  | append_singleton ds c ih =>
      have hplace : placeValue (ds ++ [c]) = digitValue c + 10 * placeValue ds := by
        rw [placeValue, List.reverse_append, List.reverse_singleton, List.singleton_append,
          List.map_cons, Nat.ofDigits_cons, placeValue]
      have hread : ofDigits (ds ++ [c]) = ofDigits ds * 10 + digitValue c := by
        rw [ofDigits, ofDigitsFrom, List.foldl_append]
        rfl
      rw [hread, hplace, ih]
      omega

theorem withoutPlus_eq_iff {cs ds : List Char} (hds : ∀ c ∈ ds, isDigit c = true) :
    withoutPlus cs = ds ↔ cs = ds ∨ cs = '+' :: ds := by
  -- what is left does not begin with a plus sign, since that is no digit
  have hplus : ∀ rest, ds ≠ '+' :: rest := by
    rintro rest rfl
    exact absurd (hds '+' List.mem_cons_self) (by decide)
  unfold withoutPlus
  split
  · rename_i rest
    constructor
    · rintro rfl
      exact Or.inr rfl
    · rintro (h | h)
      · exact absurd h.symm (hplus rest)
      · exact (List.cons.inj h).2
  · rename_i hne
    constructor
    · exact Or.inl
    · rintro (h | h)
      · exact h
      · exact absurd h (hne ds)

/-- **Which texts are numbers**: those that are a numeral of a number below the bound. -/
theorem below?_eq_some_iff {bound n : Nat} {text : String} :
    below? bound text = some n ↔
      ∃ ds, IsNumeral text ds ∧ placeValue ds = n ∧ n < bound := by
  have hread : below? bound text = some n ↔
      (withoutPlus text.toList ≠ [] ∧ ∀ c ∈ withoutPlus text.toList, isDigit c = true) ∧
        placeValue (withoutPlus text.toList) = n ∧ n < bound := by
    rw [below?, ofDigits_eq_placeValue, ne_eq, ← List.isEmpty_iff, ← List.all_eq_true]
    cases (withoutPlus text.toList).isEmpty <;>
      cases (withoutPlus text.toList).all isDigit <;> simp
    constructor
    · rintro ⟨hbound, rfl⟩
      exact ⟨rfl, hbound⟩
    · rintro ⟨rfl, hbound⟩
      exact ⟨hbound, rfl⟩
  rw [hread]
  constructor
  · rintro ⟨⟨hne, hdigits⟩, hvalue, hbound⟩
    exact ⟨_, ⟨hne, hdigits, (withoutPlus_eq_iff hdigits).mp rfl⟩, hvalue, hbound⟩
  · rintro ⟨ds, ⟨hne, hdigits, htext⟩, hvalue, hbound⟩
    rw [(withoutPlus_eq_iff hdigits).mpr htext]
    exact ⟨⟨hne, hdigits⟩, hvalue, hbound⟩

end Decimal

/-! ## Words -/

/-- Every character of a text is white space. -/
def AllBlank (cs : List Char) : Prop :=
  ∀ c ∈ cs, isBlank c = true

/-- The text is one of the words, in any letter case and with any white space around it. -/
def Says (words : List String) (text : String) : Prop :=
  ∃ before word after, text.toList = before ++ word ++ after ∧ AllBlank before ∧ AllBlank after ∧
    String.ofList (word.map asciiLower) ∈ words

/-- White space is taken off both ends and nothing else. -/
theorem exists_trimChars (cs : List Char) :
    ∃ before after, cs = before ++ trimChars cs ++ after ∧ AllBlank before ∧ AllBlank after := by
  have hblank : ∀ ds : List Char, AllBlank (ds.takeWhile isBlank) :=
    fun ds c hc => List.all_eq_true.mp List.all_takeWhile c hc
  have hback := congrArg List.reverse
    (List.takeWhile_append_dropWhile (p := isBlank) (l := (cs.dropWhile isBlank).reverse))
  rw [List.reverse_append, List.reverse_reverse] at hback
  refine ⟨cs.takeWhile isBlank, ((cs.dropWhile isBlank).reverse.takeWhile isBlank).reverse, ?_,
    hblank cs, fun c hc => hblank _ c (List.mem_reverse.mp hc)⟩
  rw [trimChars, List.append_assoc, hback, List.takeWhile_append_dropWhile]

/-- What has no white space in it is left when the white space around it is taken off. -/
theorem trimChars_append {before word after : List Char} (hbefore : AllBlank before)
    (hafter : AllBlank after) (hword : ∀ c ∈ word, isBlank c = false) :
    trimChars (before ++ word ++ after) = word := by
  have hkept : ∀ {ds : List Char}, (∀ c ∈ ds, isBlank c = false) → ds.dropWhile isBlank = ds := by
    intro ds hds
    cases ds with
    | nil => rfl
    | cons d ds => exact List.dropWhile_cons_of_neg (by simp [hds d List.mem_cons_self])
  have hreverse : ∀ c ∈ word.reverse, isBlank c = false :=
    fun c hc => hword c (List.mem_reverse.mp hc)
  cases word with
  | nil =>
      have hnone : (before ++ after).dropWhile isBlank = [] :=
        List.dropWhile_eq_nil_iff.mpr (List.forall_mem_append.mpr ⟨hbefore, hafter⟩)
      rw [trimChars, List.append_nil, hnone]
      rfl
  | cons c word =>
      have hfirst : isBlank c = false := hword c List.mem_cons_self
      rw [trimChars, List.append_assoc, List.dropWhile_append_of_pos hbefore, List.cons_append,
        List.dropWhile_cons_of_neg (by simp [hfirst]), ← List.cons_append, List.reverse_append,
        List.dropWhile_append_of_pos fun d hd => hafter d (List.mem_reverse.mp hd), hkept hreverse,
        List.reverse_reverse]

/-- The letters that change their case are not white space, neither before nor after. -/
theorem isBlank_asciiLower (c : Char) : isBlank (asciiLower c) = isBlank c :=
  eq_of_asciiLower (by decide) c

/-- **A word is recognized** in whatever letter case and whatever white space around it. -/
theorem asciiLowercase_trim_mem_iff {words : List String} {text : String}
    (hwords : ∀ word ∈ words, ∀ c ∈ word.toList, isBlank c = false) :
    asciiLowercase (trim text) ∈ words ↔ Says words text := by
  have hlower : asciiLowercase (trim text)
      = String.ofList ((trimChars text.toList).map asciiLower) := by
    rw [asciiLowercase, trim, String.toList_ofList]
  rw [hlower]
  constructor
  · intro hmem
    obtain ⟨before, after, htext, hbefore, hafter⟩ := exists_trimChars text.toList
    exact ⟨before, _, after, htext, hbefore, hafter, hmem⟩
  · rintro ⟨before, word, after, htext, hbefore, hafter, hmem⟩
    -- a word in small letters has no white space, so it had none before
    have hword : ∀ c ∈ word, isBlank c = false := by
      intro c hc
      have hsmall := hwords _ hmem (asciiLower c)
        (by rw [String.toList_ofList]; exact List.mem_map_of_mem hc)
      rwa [isBlank_asciiLower] at hsmall
    rwa [htext, trimChars_append hbefore hafter hword]

end Cartograph.Text
