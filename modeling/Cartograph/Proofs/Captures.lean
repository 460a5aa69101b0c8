import Cartograph.Proofs.Patterns
import Cartograph.Proofs.Text.Names
import Cartograph.Script.Patterns

/-!
# What patterns capture

A pattern whose captured parts are all runs of some characters captures nothing but these
characters, whatever it is searched for in. Main statement: the name of a class in a script file,
and the name of its base, consist of word characters (`Script.allows_of_classDeclaration`). Where
the order of the captures matters they are read off the pattern part by part
(`Pattern.Captures.append`).
-/

namespace Cartograph

namespace Pattern

/-- The text has allowed characters only. -/
def Allows (allowed : Char → Bool) (text : String) : Prop :=
  ∀ c ∈ text.toList, allowed c = true

/-- Whatever is captured is a run of allowed characters. -/
def CapturesRuns (allowed : Char → Bool) : Pattern → Prop
  | word _ => True
  | one _ => True
  | run _ _ => True
  | capture p => ∃ least, p = run least allowed
  | andThen p q => p.CapturesRuns allowed ∧ q.CapturesRuns allowed
  | orElse p q => p.CapturesRuns allowed ∧ q.CapturesRuns allowed
  | many p => p.CapturesRuns allowed

variable {allowed : Char → Bool}

/-- A captured run has allowed characters only. -/
theorem allows_of_take_capture {least : Nat} {cs : List Char} {found : Found}
    (h : take (capture (run least allowed)) cs = some found) :
    ∀ s ∈ found.captures, Allows allowed s := by
  rw [takesRun_capture (takesRun_run least allowed) cs] at h
  split at h
  · obtain rfl := Option.some.inj h
    intro s hs c hc
    obtain rfl := List.mem_singleton.mp hs
    rw [String.toList_ofList] at hc
    exact List.all_eq_true.mp List.all_takeWhile c hc
  · cases h

/-- Going on captures what the first find and the steps capture. -/
theorem allows_of_goOn {step : List Char → Option Found}
    (hstep : ∀ cs found, step cs = some found → ∀ s ∈ found.captures, Allows allowed s)
    (fuel : Nat) {found : Found} (hfound : ∀ s ∈ found.captures, Allows allowed s) :
    ∀ s ∈ (goOn step fuel found).captures, Allows allowed s := by
  induction fuel generalizing found with
  | zero => exact hfound
  | succ fuel ih =>
      rw [goOn]
      split
      · rename_i next hnext
        refine ih fun s hs => ?_
        rcases List.mem_append.mp hs with hs | hs
        · exact hfound s hs
        · exact hstep _ next hnext s hs
      · exact hfound

/-- What such a pattern captures at the front of a text has allowed characters only. -/
theorem CapturesRuns.allows_of_take {p : Pattern} (h : p.CapturesRuns allowed) {cs : List Char}
    {found : Found} (ht : take p cs = some found) : ∀ s ∈ found.captures, Allows allowed s := by
  induction p generalizing cs found with
  | word lead =>
      obtain ⟨rest, -, rfl⟩ := Option.map_eq_some_iff.mp ht
      simp
  | one allows =>
      cases cs with
      | nil => cases ht
      | cons c cs =>
          rw [take] at ht
          split at ht <;> cases ht
          simp
  | run least allows =>
      simp only [take] at ht
      split at ht <;> cases ht
      simp
  | capture p _ =>
      obtain ⟨least, rfl⟩ := h
      exact allows_of_take_capture ht
  | andThen p q ihp ihq =>
      rw [take] at ht
      split at ht
      · rename_i f hf
        obtain ⟨g, hg, rfl⟩ := Option.map_eq_some_iff.mp ht
        intro s hs
        rcases List.mem_append.mp hs with hs | hs
        · exact ihp h.1 hf s hs
        · exact ihq h.2 hg s hs
      · cases ht
  | orElse p q ihp ihq =>
      rw [take] at ht
      split at ht
      · rename_i f hf
        cases ht
        exact ihp h.1 hf
      · exact ihq h.2 ht
  | many p ih =>
      obtain rfl := Option.some.inj ht
      exact allows_of_goOn (fun cs found hf => ih h hf) _ (by simp)

/-- **What such a pattern captures anywhere** has allowed characters only. -/
theorem CapturesRuns.allows_of_mem_occurrencesFrom {p : Pattern} (h : p.CapturesRuns allowed)
    {line skip : Nat} {cs : List Char} {found : Occurrence}
    (hf : found ∈ occurrencesFrom p line skip cs) : ∀ s ∈ found.captures, Allows allowed s := by
  induction cs generalizing line skip with
  | nil => cases hf
  | cons c cs ih =>
      unfold occurrencesFrom at hf
      dsimp only at hf
      split at hf
      · exact ih hf
      · split at hf
        · rename_i taken htaken
          rcases List.mem_cons.mp hf with rfl | hf
          · exact h.allows_of_take htaken
          · exact ih hf
        · exact ih hf

theorem CapturesRuns.allows_of_mem_firstCaptures {p : Pattern} (h : p.CapturesRuns allowed)
    {cs : List Char} {found : Nat × String} (hf : found ∈ firstCaptures p cs) :
    Allows allowed found.2 := by
  obtain ⟨occurrence, hoccurrence, hfound⟩ := List.mem_filterMap.mp hf
  obtain ⟨s, hs, rfl⟩ := Option.map_eq_some_iff.mp hfound
  exact h.allows_of_mem_occurrencesFrom hoccurrence s (List.mem_of_mem_head? hs)

/-- Word characters are no colons. -/
theorem Allows.not_mem_colon {text : String} (h : Allows Text.isWord text) : ':' ∉ text.toList := by
  intro hcolon
  have hword : Text.isWord ':' = true := h ':' hcolon
  rw [Text.isWord_colon] at hword
  cases hword

/-! ## Captures in their order -/

/-- Wherever the pattern fits, this holds of what it captures. -/
def Captures (p : Pattern) (captured : List String → Prop) : Prop :=
  ∀ ⦃cs found⦄, take p cs = some found → captured found.captures

/-- The pattern captures nothing. -/
def Silent (p : Pattern) : Prop :=
  p.Captures (· = [])

section

variable {p q : Pattern} {first second : List String → Prop}

theorem silent_text (s : String) : (text s).Silent := by
  intro cs found h
  obtain ⟨rest, -, rfl⟩ := Option.map_eq_some_iff.mp h
  rfl

theorem silent_one (allowed : Char → Bool) : (one allowed).Silent := by
  intro cs found h
  cases cs with
  | nil => cases h
  | cons c cs =>
      rw [take] at h
      split at h <;> cases h
      rfl

theorem silent_run (least : Nat) (allowed : Char → Bool) : (run least allowed).Silent := by
  intro cs found h
  rw [takesRun_run least allowed cs] at h
  split at h <;> cases h
  rfl

/-- The captures of one pattern stand in front of those of the pattern behind it. -/
theorem Captures.append (hp : p.Captures first) (hq : q.Captures second) :
    (p ++ q).Captures fun captures => ∃ a, first a ∧ ∃ b, second b ∧ captures = a ++ b := by
  intro cs found h
  obtain ⟨f, hf, g, hg, rfl⟩ := take_append_eq_some_iff.mp h
  exact ⟨f.captures, hp hf, g.captures, hq hg, rfl⟩

theorem Silent.append_left (hp : p.Silent) (hq : q.Captures second) : (p ++ q).Captures second := by
  intro cs found h
  obtain ⟨_, rfl, b, hb, heq⟩ := hp.append hq h
  exact heq ▸ hb

theorem Captures.append_right (hp : p.Captures first) (hq : q.Silent) :
    (p ++ q).Captures first := by
  intro cs found h
  obtain ⟨a, ha, _, rfl, heq⟩ := hp.append hq h
  rw [heq, List.append_nil]
  exact ha

/-- A part that is captured is the only capture if nothing is captured in it. -/
theorem captures_capture (h : p.Silent) :
    (capture p).Captures fun captures => ∃ s, captures = [s] := by
  intro cs found hfound
  obtain ⟨f, hf, rfl⟩ := Option.map_eq_some_iff.mp hfound
  exact ⟨_, congrArg _ (h hf)⟩

/-- The first of several words that fits is one of them, and it stands at the front. -/
theorem exists_of_take_oneOf {words : List String} {cs : List Char} {found : Found}
    (h : take (oneOf words) cs = some found) :
    ∃ word ∈ words, cs = word.toList ++ found.rest ∧ found.length = word.toList.length ∧
      found.captures = [] := by
  induction words with
  | nil => cases cs <;> cases h
  | cons word words ih =>
      rw [oneOf, firstOf, List.map_cons, List.foldr_cons, take] at h
      split at h
      · rename_i f hf
        cases h
        obtain ⟨rest, hrest, rfl⟩ := Option.map_eq_some_iff.mp hf
        exact ⟨word, List.mem_cons_self, Text.stripLead?_eq_some_iff.mp hrest, rfl, rfl⟩
      · obtain ⟨other, hother, hfound⟩ := ih h
        exact ⟨other, List.mem_cons_of_mem _ hother, hfound⟩

theorem silent_oneOf (words : List String) : (oneOf words).Silent := by
  intro cs found h
  obtain ⟨-, -, -, -, hsilent⟩ := exists_of_take_oneOf h
  exact hsilent

/-- Of several words one is captured. -/
theorem captures_capture_oneOf (words : List String) :
    (capture (oneOf words)).Captures fun captures => ∃ word ∈ words, captures = [word] := by
  intro cs found h
  obtain ⟨f, hf, rfl⟩ := Option.map_eq_some_iff.mp h
  obtain ⟨word, hword, hcs, hlength, hsilent⟩ := exists_of_take_oneOf hf
  refine ⟨word, hword, ?_⟩
  dsimp only
  rw [hsilent, hlength, hcs, List.take_left', String.ofList_toList]
  rfl

end

end Pattern

namespace Script

open Pattern

/-- **Names of classes in script files** and the names of their bases have word characters only. -/
theorem allows_of_classDeclaration {text : List Char} {found : Occurrence}
    (h : found ∈ classDeclaration.occurrences text) :
    ∀ s ∈ found.captures, Allows Text.isWord s := by
  have hruns : classDeclaration.CapturesRuns Text.isWord := by
    simp [classDeclaration, exported, Pattern.optional, Pattern.text, gap, nothing, name,
      CapturesRuns, HAppend.hAppend, Append.append]
  exact hruns.allows_of_mem_occurrencesFrom h

/-- **Names of functions in script files** have word characters only. -/
theorem allows_of_functionShapes {text : List Char} {shape : Pattern}
    (hshape : shape ∈ functionShapes) {found : Nat × String}
    (h : found ∈ shape.firstCaptures text) : Allows Text.isWord found.2 := by
  have hruns : shape.CapturesRuns Text.isWord := by
    simp only [functionShapes, List.mem_cons, List.not_mem_nil, or_false] at hshape
    rcases hshape with rfl | rfl <;>
      simp [functionDeclaration, arrowDeclaration, parametersAndArrow, asyncMark, exported,
        Pattern.optional, oneOf, firstOf, never, Pattern.text, gap, blanks, nothing, name,
        CapturesRuns, HAppend.hAppend, Append.append]
  exact hruns.allows_of_mem_firstCaptures h

end Script

end Cartograph
