import Cartograph.Text.Split

/-!
# Cutting and gluing text

Cutting at a separator and gluing undo one another. Gluing undoes cutting for every text; here is
the other way round (`pieces_glue`), and what both do to texts put one behind the other. The same
is said of strings (`joinText_splitText`, `splitText_joinText`).
-/

namespace Cartograph.Text

section

variable {α : Type} [DecidableEq α] {sep : α}

/-- A separator in the middle of a text parts its pieces. -/
theorem pieces_append (sep : α) (cs ds : List α) :
    pieces sep (cs ++ sep :: ds) = pieces sep cs ++ pieces sep ds := by
  induction cs with
  | nil => simp [pieces]
  | cons c cs ih =>
      by_cases hc : c = sep
      · rw [List.cons_append, pieces, if_pos hc, pieces, if_pos hc, ih, List.cons_append]
      · rw [List.cons_append, pieces, if_neg hc, pieces, if_neg hc, ih]
        cases hp : pieces sep cs with
        | nil => exact absurd hp (pieces_ne_nil sep cs)
        | cons p ps => rfl

/-- A text without separators is one piece. -/
theorem pieces_of_not_mem {cs : List α} (h : sep ∉ cs) : pieces sep cs = [cs] := by
  induction cs with
  | nil => rfl
  | cons c cs ih =>
      rw [List.mem_cons, not_or] at h
      rw [pieces, if_neg (Ne.symm h.1), ih h.2]

/-- Cutting undoes gluing when no part holds a separator. -/
theorem pieces_glue {parts : List (List α)} (hne : parts ≠ []) (h : ∀ p ∈ parts, sep ∉ p) :
    pieces sep (glue sep parts) = parts := by
  induction parts with
  | nil => exact absurd rfl hne
  | cons p ps ih =>
      by_cases hps : ps = []
      · subst hps
        exact pieces_of_not_mem (h p (by simp))
      · rw [glue_cons hps, pieces_append, pieces_of_not_mem (h p (by simp)),
          ih hps fun q hq => h q (List.mem_cons_of_mem p hq), List.singleton_append]

omit [DecidableEq α] in
/-- The parts of one list and then those of another, glued together. -/
theorem glue_append {ps qs : List (List α)} (hps : ps ≠ []) (hqs : qs ≠ []) :
    glue sep (ps ++ qs) = glue sep ps ++ sep :: glue sep qs := by
  induction ps with
  | nil => exact absurd rfl hps
  | cons p ps ih =>
      by_cases h : ps = []
      · subst h
        exact glue_cons hqs
      · rw [List.cons_append, glue_cons (by simp [h]), ih h, glue_cons h, List.append_assoc,
          List.cons_append]

/-- The last piece of a text is what stands behind its last separator. -/
theorem getLast?_pieces_append {cs ds : List α} (h : sep ∉ ds) :
    (pieces sep (cs ++ sep :: ds)).getLast? = some ds := by
  rw [pieces_append, pieces_of_not_mem h, List.getLast?_concat]

omit [DecidableEq α] in
/-- Characters are replaced in glued parts as they are in each of them. -/
theorem map_glue {β : Type} (f : α → β) (parts : List (List α)) :
    (glue sep parts).map f = glue (f sep) (parts.map (List.map f)) := by
  induction parts with
  | nil => rfl
  | cons part parts ih =>
      by_cases h : parts = []
      · subst h
        rfl
      · rw [glue_cons h, List.map_append, List.map_cons, ih, List.map_cons,
          glue_cons (by simpa using h)]

omit [DecidableEq α] in
/-- What a part holds is held by the parts glued together. -/
theorem mem_glue_of_mem {parts : List (List α)} {part : List α} (hpart : part ∈ parts)
    {c : α} (hc : c ∈ part) : c ∈ glue sep parts := by
  induction parts with
  | nil => cases hpart
  | cons first rest ih =>
      by_cases h : rest = []
      · subst h
        rwa [glue, ← List.mem_singleton.mp hpart]
      · rw [glue_cons h, List.mem_append, List.mem_cons]
        rcases List.mem_cons.mp hpart with rfl | hrest
        · exact Or.inl hc
        · exact Or.inr (Or.inr (ih hrest))

end

/-! ## Strings -/

variable {sep : Char}

theorem splitText_ne_nil (sep : Char) (s : String) : splitText sep s ≠ [] := by
  rw [splitText, Ne, List.map_eq_nil_iff]
  exact pieces_ne_nil sep s.toList

/-- Gluing undoes cutting. -/
theorem joinText_splitText (sep : Char) (s : String) : joinText sep (splitText sep s) = s := by
  rw [joinText, splitText, List.map_map]
  simp [Function.comp_def, glue_pieces]

theorem not_mem_of_mem_splitText {s part : String} (h : part ∈ splitText sep s) :
    sep ∉ part.toList := by
  obtain ⟨piece, hpiece, rfl⟩ := List.mem_map.mp h
  rw [String.toList_ofList]
  exact not_mem_of_mem_pieces hpiece

/-- Cutting undoes gluing when no part holds a separator. -/
theorem splitText_joinText {parts : List String} (hne : parts ≠ [])
    (h : ∀ part ∈ parts, sep ∉ part.toList) : splitText sep (joinText sep parts) = parts := by
  have hpieces : pieces sep (glue sep (parts.map String.toList)) = parts.map String.toList := by
    refine pieces_glue (by simpa using hne) fun piece hpiece => ?_
    obtain ⟨part, hpart, rfl⟩ := List.mem_map.mp hpiece
    exact h part hpart
  rw [splitText, joinText, String.toList_ofList, hpieces, List.map_map]
  simp [Function.comp_def]

theorem splitText_of_not_mem {s : String} (h : sep ∉ s.toList) : splitText sep s = [s] := by
  rw [splitText, pieces_of_not_mem h, List.map_singleton, String.ofList_toList]

/-- A separator between two texts parts their pieces. -/
theorem splitText_append {mark : String} (hmark : mark.toList = [sep]) (s t : String) :
    splitText sep (s ++ mark ++ t) = splitText sep s ++ splitText sep t := by
  have hlist : (s ++ mark ++ t).toList = s.toList ++ sep :: t.toList := by simp [hmark]
  rw [splitText, hlist, pieces_append, List.map_append, splitText, splitText]

/-- One more part stands behind a separator. -/
theorem joinText_concat {mark : String} (hmark : mark.toList = [sep]) {parts : List String}
    (h : parts ≠ []) (s : String) :
    joinText sep (parts ++ [s]) = joinText sep parts ++ mark ++ s := by
  rw [← String.toList_inj, joinText, joinText, String.toList_append, String.toList_append,
    String.toList_ofList, String.toList_ofList, List.map_append,
    glue_append (by simpa using h) (by simp), hmark]
  simp [glue]

/-- What is put behind the last part stands behind all of them. -/
theorem joinText_concat_append (parts : List String) (s t : String) :
    joinText sep (parts ++ [s ++ t]) = joinText sep (parts ++ [s]) ++ t := by
  by_cases h : parts = []
  · subst h
    rw [← String.toList_inj]
    simp [joinText, glue]
  · have hmark : (String.singleton sep).toList = [sep] := String.toList_singleton sep
    rw [joinText_concat hmark h, joinText_concat hmark h, String.append_assoc, String.append_assoc,
      String.append_assoc]

/-- A text has an ending exactly when it is some text and the ending. -/
theorem stripEnd?_eq_some_iff {s tail rest : String} :
    stripEnd? s tail = some rest ↔ s = rest ++ tail := by
  rw [stripEnd?, Option.map_eq_some_iff]
  simp only [stripTail?_eq_some_iff]
  constructor
  · rintro ⟨cs, hcs, rfl⟩
    rw [← String.toList_inj, hcs, String.toList_append, String.toList_ofList]
  · rintro rfl
    exact ⟨rest.toList, String.toList_append, String.ofList_toList⟩

end Cartograph.Text
