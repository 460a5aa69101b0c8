import Cartograph.Imports.Relative
import Cartograph.Proofs.Text
import Mathlib.Data.List.Basic

/-!
# Joined paths

A relative path is followed from a directory segment by segment: a name leads down, two dots lead
up, and one dot or nothing leads nowhere. Main statement: following fails exactly when at some point
it has led up more often than down; a path that has been reached is made of names only, leads to
itself, and what is followed from there is followed from the beginning (`joinPath?_acts`).
-/

namespace Cartograph.Relative

/-! ## Segments -/

/-- The segment leads up or down. -/
def Moves (segment : String) : Prop :=
  segment ≠ "" ∧ segment ≠ "."

instance : DecidablePred Moves :=
  fun _ => inferInstanceAs (Decidable (_ ∧ _))

/-- The segment leads down. -/
def IsName (segment : String) : Prop :=
  Moves segment ∧ segment ≠ ".."

instance : DecidablePred IsName :=
  fun _ => inferInstanceAs (Decidable (_ ∧ _))

/-- The segments of a path that lead up or down. -/
def moves (path : String) : List String :=
  (Text.splitText '/' path).filter fun segment => Moves segment

/-! ## Following -/

section

variable {above rest : List String} {segment : String}

theorem follow_cons_of_not_moves (h : ¬ Moves segment) :
    follow above (segment :: rest) = follow above rest := by
  have hstays : segment = "" ∨ segment = "." := by
    rwa [Moves, not_and_or, not_not, not_not] at h
  cases above <;> rw [follow, if_pos hstays]

theorem follow_cons_name (h : IsName segment) :
    follow above (segment :: rest) = follow (segment :: above) rest := by
  have hmoves : ¬ (segment = "" ∨ segment = ".") := not_or.mpr h.1
  cases above <;> rw [follow, if_neg hmoves, if_neg h.2]

theorem follow_cons_up {parent : String} :
    follow (parent :: above) (".." :: rest) = follow above rest := by
  simp [follow]

theorem follow_nil_up : follow [] (".." :: rest) = none := by
  simp [follow]

/-- A segment leads nowhere, up or down. -/
theorem not_moves_or_up_or_name (segment : String) :
    ¬ Moves segment ∨ segment = ".." ∨ IsName segment := by
  by_cases hmoves : Moves segment
  · by_cases hup : segment = ".."
    · exact Or.inr (Or.inl hup)
    · exact Or.inr (Or.inr ⟨hmoves, hup⟩)
  · exact Or.inl hmoves

end

/-- **Following goes on** from where it has led. -/
theorem follow_append (above front back : List String) :
    follow above (front ++ back) = (follow above front).bind fun above => follow above back := by
  induction front generalizing above with
  | nil => rfl
  | cons segment front ih =>
      rw [List.cons_append]
      rcases not_moves_or_up_or_name segment with hstays | rfl | hname
      · rw [follow_cons_of_not_moves hstays, follow_cons_of_not_moves hstays, ih]
      · cases above with
        | nil => rw [follow_nil_up, follow_nil_up, Option.bind_none]
        | cons parent above => rw [follow_cons_up, follow_cons_up, ih]
      · rw [follow_cons_name hname, follow_cons_name hname, ih]

/-- Segments that lead nowhere may be left out. -/
theorem follow_filter_moves (above segments : List String) :
    follow above (segments.filter fun segment => Moves segment) = follow above segments := by
  induction segments generalizing above with
  | nil => rfl
  | cons segment segments ih =>
      rcases not_moves_or_up_or_name segment with hstays | rfl | hname
      · rw [List.filter_cons_of_neg (by simpa using hstays), ih, follow_cons_of_not_moves hstays]
      · rw [List.filter_cons_of_pos (by decide)]
        cases above with
        | nil => rw [follow_nil_up, follow_nil_up]
        | cons parent above => rw [follow_cons_up, follow_cons_up, ih]
      · rw [List.filter_cons_of_pos (by simpa using hname.1), follow_cons_name hname,
          follow_cons_name hname, ih]

/-- Names lead down one after the other. -/
theorem follow_names {names : List String} (h : ∀ name ∈ names, IsName name) (above : List String) :
    follow above names = some (names.reverse ++ above) := by
  induction names generalizing above with
  | nil => rfl
  | cons name names ih =>
      obtain ⟨hname, hnames⟩ := List.forall_mem_cons.mp h
      rw [follow_cons_name hname, ih hnames, List.reverse_cons, List.append_assoc,
        List.singleton_append]

/-- What has been reached was above before or is a name among the segments. -/
theorem of_mem_follow {above segments reached : List String}
    (h : follow above segments = some reached) {name : String} (hname : name ∈ reached) :
    name ∈ above ∨ name ∈ segments ∧ IsName name := by
  induction segments generalizing above with
  | nil =>
      obtain rfl : above = reached := Option.some.inj h
      exact Or.inl hname
  | cons segment segments ih =>
      have hlater : name ∈ segments ∧ IsName name → name ∈ segment :: segments ∧ IsName name :=
        And.imp_left (List.mem_cons_of_mem segment)
      rcases not_moves_or_up_or_name segment with hstays | rfl | hsegment
      · rw [follow_cons_of_not_moves hstays] at h
        exact (ih h).imp_right hlater
      · cases above with
        | nil =>
            rw [follow_nil_up] at h
            cases h
        | cons parent above =>
            -- leading up only takes a name away
            rw [follow_cons_up] at h
            exact (ih h).imp (List.mem_cons_of_mem parent) hlater
      · rw [follow_cons_name hsegment] at h
        rcases ih h with habove | hsegments
        · rcases List.mem_cons.mp habove with rfl | hold
          · exact Or.inr ⟨List.mem_cons_self, hsegment⟩
          · exact Or.inl hold
        · exact Or.inr (hlater hsegments)

/-! ## Leading out -/

/-- At some point the segments have led up so often that neither what they have led down nor the
names above make up for it. -/
def ClimbsPast (height : Nat) (segments : List String) : Prop :=
  ∃ front, front <+: segments ∧
    height + front.countP (fun segment => segment ≠ "..") < front.count ".."

section

variable {height : Nat} {segments : List String} {segment : String}

theorem not_climbsPast_nil (height : Nat) : ¬ ClimbsPast height [] := by
  rintro ⟨front, hfront, hcount⟩
  rw [List.prefix_nil.mp hfront] at hcount
  simp at hcount

/-- Nothing has led up before the first segment. -/
theorem climbsPast_cons_iff : ClimbsPast height (segment :: segments) ↔
    ∃ front, front <+: segments ∧
      height + (segment :: front).countP (fun segment => segment ≠ "..")
        < (segment :: front).count ".." := by
  constructor
  · rintro ⟨front, hfront, hcount⟩
    rcases List.prefix_cons_iff.mp hfront with rfl | ⟨shorter, rfl, hshorter⟩
    · -- No segments at all have not led up.
      simp at hcount
    · exact ⟨shorter, hshorter, hcount⟩
  · rintro ⟨front, hfront, hcount⟩
    exact ⟨segment :: front, List.prefix_cons_iff.mpr (Or.inr ⟨front, rfl, hfront⟩), hcount⟩

theorem climbsPast_zero_up : ClimbsPast 0 (".." :: segments) :=
  climbsPast_cons_iff.mpr ⟨[], List.nil_prefix, by decide⟩

theorem climbsPast_succ_up_iff :
    ClimbsPast (height + 1) (".." :: segments) ↔ ClimbsPast height segments := by
  rw [climbsPast_cons_iff]
  refine exists_congr fun front => and_congr_right fun _ => ?_
  rw [List.count_cons_self, List.countP_cons_of_neg (by decide)]
  omega

theorem climbsPast_name_iff (h : IsName segment) :
    ClimbsPast height (segment :: segments) ↔ ClimbsPast (height + 1) segments := by
  rw [climbsPast_cons_iff]
  refine exists_congr fun front => and_congr_right fun _ => ?_
  rw [List.count_cons_of_ne h.2, List.countP_cons_of_pos (by simpa using h.2)]
  omega

end

/-- **Following fails** exactly when it leads up past everything above. -/
theorem follow_eq_none_iff {segments : List String} (h : ∀ segment ∈ segments, Moves segment)
    (above : List String) : follow above segments = none ↔ ClimbsPast above.length segments := by
  induction segments generalizing above with
  | nil => exact iff_of_false nofun (not_climbsPast_nil _)
  | cons segment segments ih =>
      obtain ⟨hsegment, hsegments⟩ := List.forall_mem_cons.mp h
      rcases not_moves_or_up_or_name segment with hstays | rfl | hname
      · exact absurd hsegment hstays
      · cases above with
        | nil => exact iff_of_true follow_nil_up climbsPast_zero_up
        | cons parent above =>
            rw [follow_cons_up, ih hsegments, List.length_cons, climbsPast_succ_up_iff]
      · rw [follow_cons_name hname, ih hsegments, List.length_cons, climbsPast_name_iff hname]

/-! ## Joining -/

theorem splitText_append_slash (s t : String) :
    Text.splitText '/' (s ++ "/" ++ t) = Text.splitText '/' s ++ Text.splitText '/' t :=
  Text.splitText_append rfl s t

/-- **Names that are glued together** are followed as they are. -/
theorem follow_splitText_joinText {names : List String} (h : ∀ name ∈ names, IsName name)
    (hslash : ∀ name ∈ names, '/' ∉ name.toList) :
    follow [] (Text.splitText '/' (Text.joinText '/' names)) = some names.reverse := by
  by_cases hnil : names = []
  · subst hnil
    rfl
  · rw [Text.splitText_joinText hnil hslash, follow_names h, List.append_nil]

/-- **A joined path** is made of names, and to follow it is to follow what it was joined from. -/
theorem joinPath?_eq_some {directory relative path : String}
    (h : joinPath? directory relative = some path) :
    ∃ names, path = Text.joinText '/' names ∧
      (∀ name ∈ names, IsName name ∧ '/' ∉ name.toList) ∧
      follow [] (Text.splitText '/' directory ++ Text.splitText '/' relative)
        = some names.reverse := by
  obtain ⟨reached, hreached, rfl⟩ := Option.map_eq_some_iff.mp h
  refine ⟨reached.reverse, rfl, fun name hname => ?_, by rw [List.reverse_reverse, hreached]⟩
  have hsegment := (of_mem_follow hreached (List.mem_reverse.mp hname)).resolve_left
    List.not_mem_nil
  refine ⟨hsegment.2, ?_⟩
  rcases List.mem_append.mp hsegment.1 with hmem | hmem
  · exact Text.not_mem_of_mem_splitText hmem
  · exact Text.not_mem_of_mem_splitText hmem

/-- What a joined path is: none is reached exactly when the segments lead out at some point, and one
that is reached is a place to go on from. -/
structure Acts (directory relative : String) (outcome : Option String) : Prop where
  eq_none_iff : outcome = none ↔ ∃ front, front <+: moves directory ++ moves relative ∧
    front.countP (fun segment => segment ≠ "..") < front.count ".."
  names : ∀ path, outcome = some path → path = "" ∨
    ∀ segment ∈ Text.splitText '/' path, segment ≠ "" ∧ segment ≠ "." ∧ segment ≠ ".."
  stays : ∀ path, outcome = some path → joinPath? path "" = some path
  goes_on : ∀ further, joinPath? directory (relative ++ "/" ++ further)
    = outcome.bind fun path => joinPath? path further

/-- **Joining is a partial action** of relative paths on directories. -/
theorem joinPath?_acts (directory relative : String) :
    Acts directory relative (joinPath? directory relative) where
  eq_none_iff := by
    have hmoves : ∀ segment ∈ moves directory ++ moves relative, Moves segment := by
      intro segment hsegment
      rw [moves, moves, ← List.filter_append] at hsegment
      exact of_decide_eq_true (List.mem_filter.mp hsegment).2
    -- the counts are of the segments that move, and the others are passed over by following too
    have hfollow := follow_eq_none_iff hmoves []
    rw [moves, moves, ← List.filter_append, follow_filter_moves, List.filter_append] at hfollow
    rw [joinPath?, Option.map_eq_none_iff, hfollow]
    simp only [ClimbsPast, List.length_nil, Nat.zero_add, moves]
  names path hpath := by
    obtain ⟨names, rfl, hnames, -⟩ := joinPath?_eq_some hpath
    by_cases hnil : names = []
    · subst hnil
      exact Or.inl rfl
    · rw [Text.splitText_joinText hnil fun name hname => (hnames name hname).2]
      exact Or.inr fun name hname => and_assoc.mp (hnames name hname).1
  stays path hpath := by
    obtain ⟨names, rfl, hnames, -⟩ := joinPath?_eq_some hpath
    have hself := follow_splitText_joinText (fun name hname => (hnames name hname).1)
      fun name hname => (hnames name hname).2
    have hempty : Text.splitText '/' "" = [""] := by decide
    rw [joinPath?, hempty, follow_append, hself, Option.bind_some,
      follow_cons_of_not_moves (by decide), follow, Option.map_some, List.reverse_reverse]
  goes_on further := by
    rw [joinPath?, splitText_append_slash, ← List.append_assoc, follow_append]
    cases hjoin : joinPath? directory relative with
    | none =>
        rw [joinPath?, Option.map_eq_none_iff] at hjoin
        rw [hjoin]
        rfl
    | some path =>
        obtain ⟨names, rfl, hnames, hfollow⟩ := joinPath?_eq_some hjoin
        have hself := follow_splitText_joinText (fun name hname => (hnames name hname).1)
          fun name hname => (hnames name hname).2
        rw [hfollow, Option.bind_some, Option.bind_some, joinPath?, follow_append, hself,
          Option.bind_some]

end Cartograph.Relative
