import Cartograph.Pattern
import Mathlib.Data.List.Basic
import Mathlib.Data.List.TakeDrop
import Mathlib.Data.Set.NAry

/-!
# What patterns read

A pattern takes nothing back, so what it takes can depend on what stands behind. A pattern that
`Reads` a set of texts does not: wherever it fits it takes one of these, and takes the same one when
something else stands behind. A run of characters is no such pattern, but a run in front of one is
(`Reads.run_append`).

No framed text has another inside (`framed_apart`). Main statement: when a text is continued, a
pattern that reads framed texts finds first what it found before, though an open find may have been
closed by then (`Reads.occurrences_prefix`).
-/

namespace Cartograph.Pattern

variable {p q r : Pattern} {cs : List Char} {found : Found}

/-! ## One pattern behind another -/

theorem take_append :
    take (p ++ q) cs = (take p cs).bind fun f => (take q f.rest).map f.followedBy := by
  change take (andThen p q) cs = _
  rw [take]
  cases take p cs <;> rfl

theorem take_append_eq_some_iff : take (p ++ q) cs = some found ↔
    ∃ f, take p cs = some f ∧ ∃ g, take q f.rest = some g ∧ f.followedBy g = found := by
  rw [take_append, Option.bind_eq_some_iff]
  simp only [Option.map_eq_some_iff]

theorem take_append_assoc : take (p ++ q ++ r) cs = take (p ++ (q ++ r)) cs := by
  simp only [take_append, Option.bind_assoc, Option.map_bind]
  congr 1
  funext f
  cases take q f.rest with
  | none => rfl
  | some g =>
      have hfollowed : (f.followedBy g).followedBy = f.followedBy ∘ g.followedBy := by
        funext h
        simp [Found.followedBy, Nat.add_assoc]
      show (take r g.rest).map (f.followedBy g).followedBy
        = ((take r g.rest).map g.followedBy).map f.followedBy
      rw [hfollowed, Option.map_map]

/-! ## Texts that patterns read -/

/-- The texts of allowed characters. -/
def allOf (allowed : Char → Bool) : Set (List Char) :=
  {s | ∀ c ∈ s, allowed c = true}

/-- The texts of one allowed character. -/
def single (allowed : Char → Bool) : Set (List Char) :=
  {s | ∃ c, allowed c = true ∧ s = [c]}

theorem not_mem_of_mem_allOf {allowed : Char → Bool} {s : List Char} (hs : s ∈ allOf allowed)
    {c : Char} (hc : allowed c = false) : c ∉ s := by
  intro h
  rw [hs c h] at hc
  cases hc

/-- The texts of one set, each with one of another set behind it. -/
def joined (A B : Set (List Char)) : Set (List Char) :=
  Set.image2 (· ++ ·) A B

/-- Wherever the pattern fits, it takes a text of the set, which is not empty, and the text is taken
whatever stands behind it. -/
def Reads (p : Pattern) (A : Set (List Char)) : Prop :=
  ∀ ⦃cs found⦄, take p cs = some found →
    ∃ shown ∈ A, shown ≠ [] ∧ cs = shown ++ found.rest ∧ found.length = shown.length ∧
      ∀ rest, take p (shown ++ rest) = some ⟨found.length, found.captures, rest⟩

variable {A B : Set (List Char)} {least : Nat} {allowed : Char → Bool}
  {captured : List Char → List String}

/-- A find stays the same when the text is continued. -/
theorem Reads.take_append_right (hp : Reads p A) (h : take p cs = some found) (more : List Char) :
    take p (cs ++ more) = some ⟨found.length, found.captures, found.rest ++ more⟩ := by
  obtain ⟨shown, -, -, rfl, -, htake⟩ := hp h
  rw [List.append_assoc, htake]

theorem reads_text {s : String} (hs : s.toList ≠ []) : Reads (text s) {s.toList} := by
  intro cs found h
  obtain ⟨rest, hrest, rfl⟩ := Option.map_eq_some_iff.mp h
  refine ⟨s.toList, rfl, hs, Text.stripLead?_eq_some_iff.mp hrest, rfl, ?_⟩
  intro rest
  exact Option.map_eq_some_iff.mpr ⟨rest, Text.stripLead?_append _ _, rfl⟩

theorem reads_one (allowed : Char → Bool) : Reads (one allowed) (single allowed) := by
  intro cs found h
  cases cs with
  | nil => cases h
  | cons c cs =>
      rw [take] at h
      split at h
      · rename_i hc
        obtain rfl := Option.some.inj h
        exact ⟨[c], ⟨c, hc, rfl⟩, List.cons_ne_nil c [], rfl, rfl, fun rest => if_pos hc⟩
      · cases h

theorem Reads.append (hp : Reads p A) (hq : Reads q B) : Reads (p ++ q) (joined A B) := by
  intro cs found h
  obtain ⟨f, hf, g, hg, rfl⟩ := take_append_eq_some_iff.mp h
  obtain ⟨s, hs, hne, rfl, hslength, hstake⟩ := hp hf
  obtain ⟨t, ht, -, hrest, htlength, httake⟩ := hq hg
  refine ⟨s ++ t, Set.mem_image2_of_mem hs ht, List.append_ne_nil_of_left_ne_nil hne t, ?_, ?_, ?_⟩
  · rw [hrest, List.append_assoc]
    rfl
  · rw [List.length_append, ← hslength, ← htlength]
    rfl
  · intro rest
    rw [List.append_assoc]
    exact take_append_eq_some_iff.mpr ⟨_, hstake _, _, httake rest, rfl⟩

theorem Reads.assoc (h : Reads (p ++ (q ++ r)) A) : Reads (p ++ q ++ r) A := by
  intro cs found hfound
  simp only [take_append_assoc] at hfound ⊢
  exact h hfound

theorem Reads.mono (h : Reads p A) (hsub : A ⊆ B) : Reads p B := by
  intro cs found hfound
  obtain ⟨shown, hshown, hrest⟩ := h hfound
  exact ⟨shown, hsub hshown, hrest⟩

/-! ## Runs -/

/-- The pattern takes all allowed characters there are. -/
def TakesRun (p : Pattern) (least : Nat) (allowed : Char → Bool)
    (captured : List Char → List String) : Prop :=
  ∀ cs, take p cs = if least ≤ (cs.takeWhile allowed).length then
    some ⟨(cs.takeWhile allowed).length, captured (cs.takeWhile allowed), cs.dropWhile allowed⟩
    else none

theorem takesRun_run (least : Nat) (allowed : Char → Bool) :
    TakesRun (run least allowed) least allowed fun _ => [] := by
  intro cs
  rw [take, List.span_eq_takeWhile_dropWhile]

theorem takesRun_capture (h : TakesRun p least allowed captured) :
    TakesRun (capture p) least allowed fun s => String.ofList s :: captured s := by
  intro cs
  have hfront : cs.take (cs.takeWhile allowed).length = cs.takeWhile allowed :=
    (List.prefix_iff_eq_take.mp (List.takeWhile_prefix allowed)).symm
  rw [take, h cs]
  split
  · rw [Option.map_some]
    dsimp only
    rw [hfront]
  · rfl

/-- A run ends in front of a character that is not allowed. -/
theorem TakesRun.take_of_stops (hp : TakesRun p least allowed captured) {s : List Char}
    (hs : s ∈ allOf allowed) (hleast : least ≤ s.length) {c : Char} (hc : allowed c = false)
    (rest : List Char) :
    take p (s ++ c :: rest) = some ⟨s.length, captured s, c :: rest⟩ := by
  have htake : (s ++ c :: rest).takeWhile allowed = s := by
    rw [List.takeWhile_append_of_pos hs, List.takeWhile_cons, if_neg (by simp [hc]),
      List.append_nil]
  have hdrop : (s ++ c :: rest).dropWhile allowed = c :: rest := by
    rw [List.dropWhile_append_of_pos hs, List.dropWhile_cons, if_neg (by simp [hc])]
  rw [hp, htake, hdrop, if_pos hleast]

/-- **A run in front**: as something is read behind it, the run ends where it did when the text is
continued. -/
theorem Reads.run_append (hq : Reads q A) (hp : TakesRun p least allowed captured) :
    Reads (p ++ q) (joined (allOf allowed) A) := by
  intro cs found h
  obtain ⟨f, hf, g, hg, rfl⟩ := take_append_eq_some_iff.mp h
  rw [hp cs] at hf
  split at hf
  · rename_i hleast
    obtain rfl := Option.some.inj hf
    obtain ⟨t, ht, hne, hrest, hlength, htake⟩ := hq hg
    change cs.dropWhile allowed = t ++ g.rest at hrest
    have hs : cs.takeWhile allowed ∈ allOf allowed := List.all_eq_true.mp List.all_takeWhile
    refine ⟨cs.takeWhile allowed ++ t, Set.mem_image2_of_mem hs ht,
      List.append_ne_nil_of_right_ne_nil _ hne, ?_, ?_, ?_⟩
    · show cs = cs.takeWhile allowed ++ t ++ g.rest
      rw [List.append_assoc, ← hrest, List.takeWhile_append_dropWhile]
    · rw [List.length_append, ← hlength]
      rfl
    · intro rest
      -- what was read behind the run begins where the run had to end
      obtain ⟨c, t, rfl⟩ := List.exists_cons_of_ne_nil hne
      have hc := List.head?_dropWhile_not allowed cs
      rw [hrest] at hc
      rw [List.append_assoc]
      exact take_append_eq_some_iff.mpr ⟨_, hp.take_of_stops hs hleast hc _, _, htake rest, rfl⟩
  · cases hf

/-- A run in front of a run of these and other characters makes no difference. -/
theorem take_run_run {wider : Char → Bool} (h : ∀ c, allowed c = true → wider c = true) :
    take (run 0 allowed ++ (run 0 wider ++ q)) cs = take (run 0 wider ++ q) cs := by
  have hlead : ∀ c ∈ cs.takeWhile allowed, wider c = true :=
    fun c hc => h c (List.all_eq_true.mp List.all_takeWhile c hc)
  have hcs : cs.takeWhile allowed ++ cs.dropWhile allowed = cs := List.takeWhile_append_dropWhile
  have htake : cs.takeWhile wider
      = cs.takeWhile allowed ++ (cs.dropWhile allowed).takeWhile wider := by
    rw [← List.takeWhile_append_of_pos hlead, hcs]
  have hdrop : (cs.dropWhile allowed).dropWhile wider = cs.dropWhile wider := by
    rw [← List.dropWhile_append_of_pos hlead, hcs]
  simp only [take_append, takesRun_run _ _ _, Nat.zero_le, if_true, Option.bind_some]
  rw [hdrop, htake, Option.map_map]
  congr 1
  funext f
  simp [Found.followedBy, Nat.add_assoc]

theorem Reads.run_run {wider : Char → Bool} (hq : Reads (run 0 wider ++ q) A)
    (h : ∀ c, allowed c = true → wider c = true) :
    Reads (run 0 allowed ++ (run 0 wider ++ q)) A := by
  intro cs found hfound
  simp only [take_run_run h] at hfound ⊢
  exact hq hfound

/-! ## Parts that may be missing -/

/-- Where the part is missing, what follows is not taken for it. -/
theorem Reads.optional_append (hpq : Reads (p ++ q) A) (hq : Reads q B)
    (hp : ∀ shown ∈ B, shown ≠ [] → ∀ rest, take p (shown ++ rest) = none) :
    Reads (optional p ++ q) (A ∪ B) := by
  have hthere {cs f} (hf : take p cs = some f) : take (optional p ++ q) cs = take (p ++ q) cs := by
    rw [take_append, take_append, Pattern.optional, take, hf]
  have hmissing {cs} (hf : take p cs = none) : take (optional p ++ q) cs = take q cs := by
    rw [take_append, Pattern.optional, take, hf]
    show (take q cs).map (Found.followedBy ⟨0, [], cs⟩) = take q cs
    have hid : Found.followedBy ⟨0, [], cs⟩ = id := by
      funext f
      simp [Found.followedBy]
    rw [hid, Option.map_id, id]
  intro cs found h
  cases hf : take p cs with
  | some f =>
      obtain ⟨shown, hshown, hne, hcs, hlength, htake⟩ := hpq (hthere hf ▸ h)
      refine ⟨shown, Or.inl hshown, hne, hcs, hlength, ?_⟩
      intro rest
      obtain ⟨g, hg, -⟩ := take_append_eq_some_iff.mp (htake rest)
      rw [hthere hg, htake]
  | none =>
      obtain ⟨shown, hshown, hne, hcs, hlength, htake⟩ := hq (hmissing hf ▸ h)
      refine ⟨shown, Or.inr hshown, hne, hcs, hlength, ?_⟩
      intro rest
      rw [hmissing (hp shown hshown hne rest), htake]

/-! ## Frames -/

/-- The texts that begin with one character, which does not come again in front of the body, and end
in the only closing character behind it. -/
def framed (first : Char) (closing : Char → Bool) : Set (List Char) :=
  {s | ∃ lead body last, s = first :: (lead ++ body ++ [last]) ∧ first ∉ lead ∧
    (∀ c ∈ body, closing c = false) ∧ closing last = true}

variable {first : Char} {closing : Char → Bool}

theorem getLast?_of_mem_framed {s : List Char} (h : s ∈ framed first closing) :
    ∃ last, s.getLast? = some last ∧ closing last = true := by
  obtain ⟨lead, body, last, rfl, -, -, hlast⟩ := h
  exact ⟨last, by rw [← List.cons_append, List.getLast?_concat], hlast⟩

/-- **Framed texts in one another** begin or end together. -/
theorem framed_apart {u v x : List Char} (h : u ++ v ++ x ∈ framed first closing)
    (hv : v ∈ framed first closing) : u = [] ∨ x = [] := by
  obtain ⟨lead, body, last, hshown, hlead, hbody, -⟩ := h
  obtain ⟨inner, hlast, hclosing⟩ := getLast?_of_mem_framed hv
  have hinner : inner ∈ v := List.mem_of_getLast? hlast
  obtain ⟨w, rfl⟩ : ∃ w, v = first :: w := by
    obtain ⟨_, _, _, hv, -⟩ := hv
    exact ⟨_, hv⟩
  rcases u with _ | ⟨a, u⟩
  · exact Or.inl rfl
  rcases List.eq_nil_or_concat x with rfl | ⟨x, e, rfl⟩
  · exact Or.inr rfl
  exfalso
  have hfront : u ++ (first :: w ++ x) = lead ++ body := by
    have htail : u ++ first :: w ++ x.concat e = lead ++ body ++ [last] :=
      (List.cons.inj hshown).2
    rw [List.concat_eq_append, ← List.append_assoc] at htail
    rw [← List.append_inj_left' htail rfl, List.append_assoc]
  -- As the inner text does not begin in front of the body, its end is in the body.
  have hmem : inner ∈ body := by
    rcases List.append_eq_append_iff.mp hfront with ⟨m, rfl, hm⟩ | ⟨m, rfl, rfl⟩
    · rcases m with _ | ⟨b, m⟩
      · obtain rfl : first :: w ++ x = body := hm
        exact List.mem_append_left x hinner
      · obtain rfl := (List.cons.inj hm).1
        simp at hlead
    · exact List.mem_append_right m (List.mem_append_left x hinner)
  rw [hbody inner hmem] at hclosing
  cases hclosing

/-! ## Finds in a text that is continued -/

variable {line skip : Nat} {broken : List Char}

theorem occurrencesFrom_of_some {c : Char} (h : take p (c :: cs) = some found) :
    occurrencesFrom p line 0 (c :: cs) = ⟨line, found.captures⟩ ::
      occurrencesFrom p (if c = '\n' then line + 1 else line) (found.length - 1) cs := by
  rw [occurrencesFrom, h]

theorem occurrencesFrom_of_none {c : Char} (h : take p (c :: cs) = none) :
    occurrencesFrom p line 0 (c :: cs)
      = occurrencesFrom p (if c = '\n' then line + 1 else line) 0 cs := by
  rw [occurrencesFrom, h]

/-- A find is one of the texts, and stands somewhere in the text. -/
theorem Reads.exists_of_mem_occurrencesFrom (hp : Reads p A) {found : Occurrence}
    (h : found ∈ occurrencesFrom p line skip cs) : ∃ u v x, cs = u ++ v ++ x ∧ v ∈ A := by
  induction cs generalizing line skip with
  | nil => cases h
  | cons c cs ih =>
      have hlater {line skip} (h : found ∈ occurrencesFrom p line skip cs) :
          ∃ u v x, c :: cs = u ++ v ++ x ∧ v ∈ A := by
        obtain ⟨u, v, x, rfl, hv⟩ := ih h
        exact ⟨c :: u, v, x, rfl, hv⟩
      cases skip with
      | succ skip => exact hlater h
      | zero =>
          cases ht : take p (c :: cs) with
          | none => exact hlater (occurrencesFrom_of_none ht ▸ h)
          | some taken =>
              rw [occurrencesFrom_of_some ht] at h
              rcases List.mem_cons.mp h with rfl | h
              · obtain ⟨v, hv, -, hcs, -⟩ := hp ht
                exact ⟨[], v, taken.rest, hcs, hv⟩
              · exact hlater h

/-- Characters that close nothing do not belong to a find. -/
theorem Reads.take_of_take_append (hp : Reads p (framed first closing))
    (hbroken : ∀ c ∈ broken, closing c = false) (h : take p (cs ++ broken) = some found) :
    ∃ rest, take p cs = some ⟨found.length, found.captures, rest⟩ := by
  obtain ⟨shown, hshown, -, hcs, -, htake⟩ := hp h
  rcases List.append_eq_append_iff.mp hcs with ⟨m, rfl, hm⟩ | ⟨m, rfl, -⟩
  · -- A find that reached into them would end in one of them.
    obtain ⟨last, hlast, hclosing⟩ := getLast?_of_mem_framed hshown
    rcases m with _ | ⟨b, m⟩
    · exact ⟨[], by simpa using htake []⟩
    · rw [List.getLast?_append_of_ne_nil _ (List.cons_ne_nil b m)] at hlast
      have hmem : last ∈ broken := hm ▸ List.mem_append_left _ (List.mem_of_getLast? hlast)
      rw [hbroken last hmem] at hclosing
      cases hclosing
  · exact ⟨m, htake m⟩

/-- Characters that close nothing make no find at the end of a text. -/
theorem Reads.occurrencesFrom_append (hp : Reads p (framed first closing))
    (hbroken : ∀ c ∈ broken, closing c = false) :
    occurrencesFrom p line skip (cs ++ broken) = occurrencesFrom p line skip cs := by
  induction cs generalizing line skip with
  | nil =>
      apply List.eq_nil_iff_forall_not_mem.mpr
      intro found hfound
      obtain ⟨u, v, x, hcs, hv⟩ := hp.exists_of_mem_occurrencesFrom hfound
      obtain ⟨last, hlast, hclosing⟩ := getLast?_of_mem_framed hv
      have hmem : last ∈ u ++ v ++ x :=
        List.mem_append_left x (List.mem_append_right u (List.mem_of_getLast? hlast))
      rw [← hcs, List.nil_append] at hmem
      rw [hbroken last hmem] at hclosing
      cases hclosing
  | cons c cs ih =>
      cases skip with
      | succ skip => exact ih
      | zero =>
          cases ht : take p (c :: (cs ++ broken)) with
          | some taken =>
              have hcons : take p (c :: cs ++ broken) = some taken := ht
              obtain ⟨rest, hrest⟩ := hp.take_of_take_append hbroken hcons
              rw [List.cons_append, occurrencesFrom_of_some ht, occurrencesFrom_of_some hrest, ih]
          | none =>
              have hnone : take p (c :: cs) = none := by
                apply Option.eq_none_iff_forall_ne_some.mpr
                intro taken htaken
                rw [← List.cons_append, hp.take_append_right htaken] at ht
                cases ht
              rw [List.cons_append, occurrencesFrom_of_none ht, occurrencesFrom_of_none hnone, ih]

/-- In a find that was still open at the end of a text, no other find begins. -/
theorem Reads.occurrencesFrom_eq_nil (hp : Reads p (framed first closing)) {c : Char}
    {more : List Char} (hnone : take p (c :: cs) = none)
    (h : take p (c :: cs ++ more) = some found) : occurrencesFrom p line skip cs = [] := by
  obtain ⟨shown, hshown, -, hcs, -, htake⟩ := hp h
  apply List.eq_nil_iff_forall_not_mem.mpr
  intro inner hinner
  obtain ⟨u, v, x, rfl, hv⟩ := hp.exists_of_mem_occurrencesFrom hinner
  rcases List.append_eq_append_iff.mp hcs with ⟨m, rfl, -⟩ | ⟨m, hm, -⟩
  · have hframed : (c :: u) ++ v ++ (x ++ m) ∈ framed first closing := by
      simpa using hshown
    rcases framed_apart hframed hv with hu | hx
    · cases hu
    · obtain ⟨-, rfl⟩ := List.append_eq_nil_iff.mp hx
      have hwhole := htake []
      rw [List.append_nil, List.append_nil, hnone] at hwhole
      cases hwhole
  · rw [hm, htake m] at hnone
    cases hnone

/-- What was found in a text is found first when the text is continued. -/
theorem Reads.occurrencesFrom_prefix (hp : Reads p (framed first closing)) (more : List Char)
    (hskip : skip ≤ cs.length) :
    occurrencesFrom p line skip cs <+: occurrencesFrom p line skip (cs ++ more) := by
  induction cs generalizing line skip with
  | nil => exact List.nil_prefix
  | cons c cs ih =>
      cases skip with
      | succ skip => exact ih (Nat.le_of_succ_le_succ hskip)
      | zero =>
          cases ht : take p (c :: cs) with
          | some taken =>
              have hle : taken.length - 1 ≤ cs.length := by
                obtain ⟨shown, -, -, hcs, hlength, -⟩ := hp ht
                have htotal := congrArg List.length hcs
                rw [List.length_append, List.length_cons, ← hlength] at htotal
                omega
              have hmore := hp.take_append_right ht more
              rw [List.cons_append] at hmore ⊢
              rw [occurrencesFrom_of_some ht, occurrencesFrom_of_some hmore]
              exact (List.prefix_cons_inj _).mpr (ih hle)
          | none =>
              rw [occurrencesFrom_of_none ht]
              cases hm : take p (c :: cs ++ more) with
              | some taken =>
                  -- the find was open where the text ended, and nothing was found in it
                  rw [hp.occurrencesFrom_eq_nil ht hm]
                  exact List.nil_prefix
              | none =>
                  rw [List.cons_append] at hm ⊢
                  rw [occurrencesFrom_of_none hm]
                  exact ih (Nat.zero_le _)

/-- **A text that is continued**: what was found in it is found first in what it becomes, and
characters that closed nothing had made no find. -/
theorem Reads.occurrences_prefix (hp : Reads p (framed first closing))
    (hbroken : ∀ c ∈ broken, closing c = false) (cs more : List Char) :
    occurrences p (cs ++ broken) <+: occurrences p (cs ++ more) := by
  unfold occurrences
  rw [hp.occurrencesFrom_append hbroken]
  exact hp.occurrencesFrom_prefix more (Nat.zero_le _)

end Cartograph.Pattern
