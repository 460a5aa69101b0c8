/-!
# Cutting text at a separator

`pieces` cuts a text at every separator and keeps empty pieces, so that `glue` puts it together
again. A text is a list of characters here, or the list of the bytes that it is stored as. Main
statements: gluing undoes cutting (`glue_pieces`), and no piece holds a separator
(`not_mem_of_mem_pieces`).
-/

namespace Cartograph.Text

section

variable {α : Type} [DecidableEq α]

/-! ## Cutting and gluing -/

/-- The pieces of a text between separators. There is always one. -/
def pieces (sep : α) : List α → List (List α)
  | [] => [[]]
  | c :: cs =>
    if c = sep then [] :: pieces sep cs
    else match pieces sep cs with
      | [] => [[c]]
      | p :: ps => (c :: p) :: ps

/-- The pieces with a separator between any two. -/
def glue (sep : α) : List (List α) → List α
  | [] => []
  | [p] => p
  | p :: q :: ps => p ++ sep :: glue sep (q :: ps)

theorem pieces_ne_nil (sep : α) (cs : List α) : pieces sep cs ≠ [] := by
  induction cs with
  | nil => simp [pieces]
  | cons c cs ih =>
    unfold pieces
    split
    · simp
    · split <;> simp

omit [DecidableEq α] in
theorem glue_cons {sep : α} {p : List α} {ps : List (List α)} (h : ps ≠ []) :
    glue sep (p :: ps) = p ++ sep :: glue sep ps := by
  cases ps with
  | nil => exact absurd rfl h
  | cons q qs => rfl

/-- Gluing undoes cutting. -/
theorem glue_pieces (sep : α) (cs : List α) : glue sep (pieces sep cs) = cs := by
  induction cs with
  | nil => rfl
  | cons c cs ih =>
    by_cases hc : c = sep
    · rw [pieces, if_pos hc, glue_cons (pieces_ne_nil sep cs), ih, hc]
      rfl
    · rw [pieces, if_neg hc]
      cases hp : pieces sep cs with
      | nil => exact absurd hp (pieces_ne_nil sep cs)
      | cons p ps =>
        rw [hp] at ih
        cases ps with
        | nil => simpa [glue] using ih
        | cons q qs => simpa [glue] using ih

/-- No piece holds a separator. -/
theorem not_mem_of_mem_pieces {sep : α} {cs p : List α} (h : p ∈ pieces sep cs) :
    sep ∉ p := by
  induction cs generalizing p with
  | nil => simp_all [pieces]
  | cons c cs ih =>
    by_cases hc : c = sep
    · rw [pieces, if_pos hc] at h
      rcases List.mem_cons.mp h with rfl | h
      · simp
      · exact ih h
    · rw [pieces, if_neg hc] at h
      cases hp : pieces sep cs with
      | nil => exact absurd hp (pieces_ne_nil sep cs)
      | cons q qs =>
        rw [hp] at h ih
        rcases List.mem_cons.mp h with rfl | h
        · simp only [List.mem_cons, not_or]
          exact ⟨fun e => hc e.symm, ih (by simp)⟩
        · exact ih (by simp [h])

/-! ## Beginnings, ends and occurrences -/

/-- What stands after a leading `lead`. -/
def stripLead? : List α → List α → Option (List α)
  | [], cs => some cs
  | l :: ls, c :: cs => if l = c then stripLead? ls cs else none
  | _ :: _, [] => none

/-- What stands before a trailing `tail`. -/
def stripTail? (tail cs : List α) : Option (List α) :=
  (stripLead? tail.reverse cs.reverse).map List.reverse

/-- The characters `part` stand somewhere in the characters. -/
def occursIn (part : List α) : List α → Bool
  | [] => part.isEmpty
  | c :: cs => (stripLead? part (c :: cs)).isSome || occursIn part cs

theorem stripLead?_append (lead cs : List α) : stripLead? lead (lead ++ cs) = some cs := by
  induction lead with
  | nil => simp [stripLead?]
  | cons l ls ih => simp [stripLead?, ih]

theorem stripLead?_eq_some_iff {lead cs rest : List α} :
    stripLead? lead cs = some rest ↔ cs = lead ++ rest := by
  constructor
  · intro h
    induction lead generalizing cs with
    | nil => simpa [stripLead?] using h
    | cons l ls ih =>
      cases cs with
      | nil => simp [stripLead?] at h
      | cons c cs =>
        by_cases hc : l = c
        · simp only [stripLead?, hc, if_true] at h
          rw [hc, ih h, List.cons_append]
        · simp [stripLead?, hc] at h
  · rintro rfl
    exact stripLead?_append lead rest

theorem stripTail?_eq_some_iff {tail cs rest : List α} :
    stripTail? tail cs = some rest ↔ cs = rest ++ tail := by
  unfold stripTail?
  simp only [Option.map_eq_some_iff, stripLead?_eq_some_iff]
  constructor
  · rintro ⟨r, h, rfl⟩
    have := congrArg List.reverse h
    simpa using this
  · rintro rfl
    exact ⟨rest.reverse, by simp, by simp⟩

end

/-! ## Strings -/

/-- The pieces of a string. -/
def splitText (sep : Char) (s : String) : List String :=
  (pieces sep s.toList).map String.ofList

/-- The strings with a separator between any two. -/
def joinText (sep : Char) (parts : List String) : String :=
  String.ofList (glue sep (parts.map String.toList))

/-- What stands before the trailing `tail` of a string. -/
def stripEnd? (s tail : String) : Option String :=
  (stripTail? tail.toList s.toList).map String.ofList

/-- What stands after the leading `lead` of a string. -/
def stripStart? (s lead : String) : Option String :=
  (stripLead? lead.toList s.toList).map String.ofList

/-- The text begins with `lead`. -/
def startsWith (s lead : String) : Bool :=
  (stripLead? lead.toList s.toList).isSome

/-- The text ends in `tail`. -/
def endsIn (s tail : String) : Bool :=
  (stripTail? tail.toList s.toList).isSome

/-- The text `part` stands somewhere in the text. -/
def holds (s part : String) : Bool :=
  occursIn part.toList s.toList

end Cartograph.Text
