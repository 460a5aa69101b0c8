import Cartograph.Proofs.Imports.Tables
import Cartograph.Proofs.Patterns
import Mathlib.Order.Bounds.Basic

/-!
# Where patterns are found

A search counts lines and forgets where in the text it is. Here every find comes with its place, the
number of characters in front of it, and the line is read off the place. Main statements: a search
makes the finds at these places, each on the line on which it begins (`occurrences_eq_map`). The
finds lie apart, and a place where the pattern fits is passed over only if it lies in an earlier
find (`leftmost_finds`).
-/

namespace Cartograph.Pattern

/-! ## Finds and their places -/

/-- Finds in a text that begins at `place` and whose next `skip` characters are taken already. -/
def findsFrom (p : Pattern) (place skip : Nat) : List Char → List (Nat × Found)
  | [] => []
  | c :: cs =>
    match skip with
    | skip + 1 => findsFrom p (place + 1) skip cs
    | 0 =>
      match take p (c :: cs) with
      | some found => (place, found) :: findsFrom p (place + 1) (found.length - 1) cs
      | none => findsFrom p (place + 1) 0 cs

/-- Where the pattern is found and what it takes there, from the left and without overlaps. -/
def finds (p : Pattern) (cs : List Char) : List (Nat × Found) :=
  findsFrom p 0 0 cs

/-- The line of a place, counted from one. -/
def lineAt (text : List Char) (place : Nat) : Nat :=
  1 + (text.take place).count '\n'

/-- The find as a search tells of it. -/
def occurrenceAt (text : List Char) (entry : Nat × Found) : Occurrence where
  line := lineAt text entry.1
  captures := entry.2.captures

variable {p : Pattern} {place skip : Nat} {cs : List Char}

theorem findsFrom_of_some {c : Char} {found : Found} (h : take p (c :: cs) = some found) :
    findsFrom p place 0 (c :: cs)
      = (place, found) :: findsFrom p (place + 1) (found.length - 1) cs := by
  rw [findsFrom, h]

theorem findsFrom_of_none {c : Char} (h : take p (c :: cs) = none) :
    findsFrom p place 0 (c :: cs) = findsFrom p (place + 1) 0 cs := by
  rw [findsFrom, h]

/-- The line goes up behind the end of a line. -/
theorem lineAt_succ (before after : List Char) (c : Char) :
    lineAt (before ++ c :: after) (before.length + 1)
      = if c = '\n' then lineAt (before ++ c :: after) before.length + 1
        else lineAt (before ++ c :: after) before.length := by
  have hmore : (before ++ c :: after).take (before.length + 1) = before ++ [c] := by
    rw [List.take_length_add_append, List.take_succ_cons, List.take_zero]
  rw [lineAt, lineAt, hmore, List.take_left' rfl, List.count_append, List.count_singleton]
  by_cases hc : c = '\n' <;> simp [hc, Nat.add_assoc]

/-- The lines of a text are told by 32 bits unless it has as many lines as that. -/
theorem toNat_lineAt {text : List Char} (h : text.count '\n' + 1 < UInt32.size) (place : Nat) :
    (UInt32.ofNat (lineAt text place)).toNat = lineAt text place := by
  have hle : (text.take place).count '\n' ≤ text.count '\n' := (List.take_sublist _ _).count_le _
  refine UInt32.toNat_ofNat_of_lt' ?_
  rw [lineAt]
  omega

theorem occurrencesFrom_eq_map (before cs : List Char) (skip : Nat) :
    occurrencesFrom p (lineAt (before ++ cs) before.length) skip cs
      = (findsFrom p before.length skip cs).map (occurrenceAt (before ++ cs)) := by
  induction cs generalizing before skip with
  | nil => rfl
  | cons c cs ih =>
      -- the character goes over to those before the rest of the text
      have hrest : ∀ skip, occurrencesFrom p
          (if c = '\n' then lineAt (before ++ c :: cs) before.length + 1
            else lineAt (before ++ c :: cs) before.length) skip cs
            = (findsFrom p (before.length + 1) skip cs).map (occurrenceAt (before ++ c :: cs)) := by
        intro skip
        have h := ih (before ++ [c]) skip
        rw [List.append_assoc, List.singleton_append, List.length_append, List.length_singleton]
          at h
        rw [← lineAt_succ, h]
      cases skip with
      | succ skip => exact hrest skip
      | zero =>
          cases htake : take p (c :: cs) with
          | none => rw [occurrencesFrom_of_none htake, findsFrom_of_none htake, hrest]
          | some found =>
              rw [occurrencesFrom_of_some htake, findsFrom_of_some htake, List.map_cons, hrest]
              rfl

/-- **A search makes these finds**, each on the line of its place. -/
theorem occurrences_eq_map (p : Pattern) (text : List Char) :
    p.occurrences text = (p.finds text).map (occurrenceAt text) :=
  occurrencesFrom_eq_map [] text 0

/-- The first captures of these finds, with their lines. -/
theorem firstCaptures_eq_filterMap (p : Pattern) (text : List Char) :
    p.firstCaptures text = (p.finds text).filterMap fun entry =>
      entry.2.captures.head?.map fun s => (lineAt text entry.1, s) := by
  rw [firstCaptures, occurrences_eq_map, List.filterMap_map]
  rfl

/-! ## Which finds a search makes -/

/-- How much of the text a find takes; one character at least, so that the search goes on. -/
def Found.extent (found : Found) : Nat :=
  max 1 found.length

/-- These are the finds of a search from the left. -/
structure Leftmost (p : Pattern) (cs : List Char) (finds : List (Nat × Found)) : Prop where
  /-- The pattern fits where it is found. -/
  fits : ∀ entry ∈ finds, entry.1 < cs.length ∧ take p (cs.drop entry.1) = some entry.2
  /-- A find begins behind the one before it. -/
  apart : finds.Pairwise fun a b => a.1 + a.2.extent ≤ b.1
  /-- Wherever the pattern fits there is a find that begins there or reaches over the place. -/
  covers : ∀ place < cs.length, (take p (cs.drop place)).isSome = true →
    ∃ entry ∈ finds, entry.1 ≤ place ∧ place < entry.1 + entry.2.extent

/-- What is found in a text is found at its front or behind the first character. -/
theorem mem_findsFrom_cons {c : Char} {entry : Nat × Found}
    (h : entry ∈ findsFrom p place skip (c :: cs)) :
    skip = 0 ∧ take p (c :: cs) = some entry.2 ∧ entry.1 = place ∨
      ∃ left, skip ≤ left + 1 ∧ entry ∈ findsFrom p (place + 1) left cs := by
  cases skip with
  | succ skip => exact Or.inr ⟨skip, Nat.le_refl _, h⟩
  | zero =>
      cases htake : take p (c :: cs) with
      | none =>
          rw [findsFrom_of_none htake] at h
          exact Or.inr ⟨0, Nat.zero_le _, h⟩
      | some found =>
          rw [findsFrom_of_some htake] at h
          rcases List.mem_cons.mp h with rfl | h
          · exact Or.inl ⟨rfl, rfl, rfl⟩
          · exact Or.inr ⟨_, Nat.zero_le _, h⟩

/-- Nothing is found in what is taken already. -/
theorem le_of_mem_findsFrom {entry : Nat × Found} (h : entry ∈ findsFrom p place skip cs) :
    place + skip ≤ entry.1 := by
  induction cs generalizing place skip with
  | nil => cases h
  | cons c cs ih =>
      rcases mem_findsFrom_cons h with ⟨rfl, -, heq⟩ | ⟨left, hleft, h⟩
      · omega
      · have := ih h
        omega

/-- The pattern fits where it is found, `before` being the text in front. -/
theorem fits_of_mem_findsFrom (before : List Char) {entry : Nat × Found}
    (h : entry ∈ findsFrom p before.length skip cs) :
    entry.1 < (before ++ cs).length ∧ take p ((before ++ cs).drop entry.1) = some entry.2 := by
  induction cs generalizing before skip with
  | nil => cases h
  | cons c cs ih =>
      rcases mem_findsFrom_cons h with ⟨-, htake, heq⟩ | ⟨left, -, h⟩
      · rw [heq, List.drop_left]
        exact ⟨by simp, htake⟩
      · have hlength : (before ++ [c]).length = before.length + 1 := by simp
        rw [List.append_cons]
        exact ih (before ++ [c]) (hlength ▸ h)

theorem pairwise_findsFrom (p : Pattern) (place skip : Nat) (cs : List Char) :
    (findsFrom p place skip cs).Pairwise fun a b => a.1 + a.2.extent ≤ b.1 := by
  induction cs generalizing place skip with
  | nil => exact List.Pairwise.nil
  | cons c cs ih =>
      cases skip with
      | succ skip => exact ih _ _
      | zero =>
          cases htake : take p (c :: cs) with
          | none =>
              rw [findsFrom_of_none htake]
              exact ih _ _
          | some found =>
              rw [findsFrom_of_some htake]
              refine List.pairwise_cons.mpr ⟨fun entry hentry => ?_, ih _ _⟩
              have := le_of_mem_findsFrom hentry
              simp only [Found.extent]
              omega

/-- **No place is passed over** without a find that reaches over it. -/
theorem covers_findsFrom (before : List Char) (hplace : before.length + skip ≤ place)
    (hend : place < (before ++ cs).length)
    (hfits : (take p ((before ++ cs).drop place)).isSome = true) :
    ∃ entry ∈ findsFrom p before.length skip cs,
      entry.1 ≤ place ∧ place < entry.1 + entry.2.extent := by
  induction cs generalizing before skip with
  | nil =>
      rw [List.append_nil] at hend
      omega
  | cons c cs ih =>
      have hrest : ∀ {left}, before.length + 1 + left ≤ place →
          ∃ entry ∈ findsFrom p (before.length + 1) left cs,
            entry.1 ≤ place ∧ place < entry.1 + entry.2.extent := by
        intro left hleft
        have hlength : (before ++ [c]).length = before.length + 1 := by simp
        rw [List.append_cons] at hend hfits
        rw [← hlength] at hleft ⊢
        exact ih (before ++ [c]) hleft hend hfits
      cases skip with
      | succ skip => exact hrest (by omega)
      | zero =>
          cases htake : take p (c :: cs) with
          | none =>
              -- the pattern does not fit right here, so the place is a later one
              have hne : place ≠ before.length := by
                rintro rfl
                rw [List.drop_left, htake] at hfits
                cases hfits
              rw [findsFrom_of_none htake]
              exact hrest (by omega)
          | some found =>
              rw [findsFrom_of_some htake]
              -- the place lies in the find that begins here or behind it
              by_cases hin : place < before.length + found.extent
              · exact ⟨_, List.mem_cons_self, by omega, hin⟩
              · have hbehind : before.length + 1 + (found.length - 1) ≤ place := by
                  simp only [Found.extent] at hin
                  omega
                obtain ⟨entry, hentry, hcovers⟩ := hrest hbehind
                exact ⟨entry, List.mem_cons_of_mem _ hentry, hcovers⟩

/-- **A search goes from the left**: its finds lie apart, and it passes over no place where the
pattern fits but those in earlier finds. -/
theorem leftmost_finds (p : Pattern) (text : List Char) : p.Leftmost text (p.finds text) where
  fits _ h := fits_of_mem_findsFrom [] h
  apart := pairwise_findsFrom p 0 0 text
  covers _ hend hfits := covers_findsFrom [] (Nat.zero_le _) hend hfits

/-! ## First finds -/

/-- Finds go in the order of their places. -/
theorem finds_ordered (p : Pattern) (text : List Char) :
    (p.finds text).Pairwise fun a b => a.1 < b.1 := by
  refine (leftmost_finds p text).apart.imp fun {a b} h => ?_
  have hextent : 1 ≤ a.2.extent := Nat.le_max_left 1 _
  omega

/-- **The first find with a property** stands at the least of the places of such finds. -/
theorem exists_firstWith_finds_iff {text : List Char} {q : Found → Prop} :
    (∃ found, FirstWith (fun entry => q entry.2) (p.finds text) (place, found)) ↔
      IsLeast {place | ∃ found, (place, found) ∈ p.finds text ∧ q found} place := by
  constructor
  · rintro ⟨found, hfirst⟩
    rw [firstWith_iff_of_pairwise (fun hab => Nat.lt_asymm hab) (finds_ordered p text)] at hfirst
    refine ⟨⟨found, hfirst.1, hfirst.2.1⟩, ?_⟩
    rintro other ⟨next, hnext, hq⟩
    exact Nat.not_lt.mp (hfirst.2.2 (other, next) hnext hq)
  · rintro ⟨⟨found, hfound, hq⟩, hleast⟩
    refine ⟨found, ?_⟩
    rw [firstWith_iff_of_pairwise (fun hab => Nat.lt_asymm hab) (finds_ordered p text)]
    exact ⟨hfound, hq, fun other hother hother' =>
      Nat.not_lt.mpr (hleast ⟨other.2, hother, hother'⟩)⟩

end Cartograph.Pattern
