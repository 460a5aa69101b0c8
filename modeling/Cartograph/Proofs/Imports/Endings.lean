import Cartograph.Imports.Dotted
import Cartograph.Proofs.Text

/-!
# Endings of paths

The path of a file is shortened by the ending that it has, if it is one of some endings. None of
these has a dot, so no text ends in two of them, and what stands before the ending can be read off
the text (`eq_of_append_ending`). Main statement: what a text is without its ending
(`withoutEnding_eq_iff`). Of a file this leaves the dotted path of its module
(`modulePath_of_mem`, `modulePath_of_not_mem`).
-/

namespace Cartograph.Dotted

/-! ## Texts and their endings -/

/-- What stands before an ending is read off the text, and so is the ending. -/
theorem eq_of_append_ending {s t e f : String} (h : s ++ "." ++ e = t ++ "." ++ f)
    (he : '.' ∉ e.toList) (hf : '.' ∉ f.toList) : s = t ∧ e = f := by
  have hlist : s.toList ++ '.' :: e.toList = t.toList ++ '.' :: f.toList := by
    simpa using congrArg String.toList h
  have hlast : e.toList = f.toList := by
    have hpieces := congrArg (fun cs => (Text.pieces '.' cs).getLast?) hlist
    simpa [Text.getLast?_pieces_append, he, hf] using hpieces
  rw [hlast] at hlist
  exact ⟨String.toList_inj.mp (List.append_cancel_right hlist), String.toList_inj.mp hlast⟩

section

variable {endings : List String} {s t ending : String}

/-- **A text without its ending** is what stands before the ending, or the whole text if it has
none. -/
theorem withoutEnding_eq_iff (h : ∀ e ∈ endings, '.' ∉ e.toList) : withoutEnding s endings = t ↔
    (∃ e ∈ endings, s = t ++ "." ++ e) ∨ t = s ∧ ∀ e ∈ endings, ∀ rest, s ≠ rest ++ "." ++ e := by
  rw [withoutEnding]
  cases hfind : endings.findSome? fun e => Text.stripEnd? s ("." ++ e) with
  | some found =>
      obtain ⟨e, he, hstrip⟩ := List.exists_of_findSome?_eq_some hfind
      have hs : s = found ++ "." ++ e := by
        rw [String.append_assoc, Text.stripEnd?_eq_some_iff.mp hstrip]
      rw [Option.getD_some]
      constructor
      · rintro rfl
        exact Or.inl ⟨e, he, hs⟩
      · -- no ending has a dot, so a text cannot end in two of them
        rintro (⟨f, hf, hother⟩ | ⟨-, hnone⟩)
        · exact (eq_of_append_ending (hs.symm.trans hother) (h e he) (h f hf)).1
        · exact absurd hs (hnone e he found)
  | none =>
      have hnone : ∀ e ∈ endings, ∀ rest, s ≠ rest ++ "." ++ e := by
        intro e he rest hs
        have hstrip := List.findSome?_eq_none_iff.mp hfind e he
        rw [Text.stripEnd?_eq_some_iff.mpr (hs.trans String.append_assoc)] at hstrip
        cases hstrip
      rw [Option.getD_none]
      constructor
      · rintro rfl
        exact Or.inr ⟨rfl, hnone⟩
      · rintro (⟨e, he, hs⟩ | ⟨rfl, -⟩)
        · exact absurd hs (hnone e he t)
        · rfl

theorem withoutEnding_append_of_mem (h : ∀ e ∈ endings, '.' ∉ e.toList)
    (hending : ending ∈ endings) : withoutEnding (s ++ "." ++ ending) endings = s :=
  (withoutEnding_eq_iff h).mpr (Or.inl ⟨ending, hending, rfl⟩)

theorem withoutEnding_append_of_not_mem (h : ∀ e ∈ endings, '.' ∉ e.toList)
    (hdot : '.' ∉ ending.toList) (hending : ending ∉ endings) :
    withoutEnding (s ++ "." ++ ending) endings = s ++ "." ++ ending := by
  refine (withoutEnding_eq_iff h).mpr (Or.inr ⟨rfl, fun e he rest hs => hending ?_⟩)
  rw [(eq_of_append_ending hs hdot (h e he)).2]
  exact he

end

/-! ## Separators turned into dots -/

theorem dots_append (s t : String) : dots (s ++ t) = dots s ++ dots t := by
  rw [← String.toList_inj, dots, dots, dots]
  simp

/-- It makes no difference if the parts are separated or dotted. -/
theorem dots_joinText (parts : List String) :
    dots (Text.joinText '/' parts) = dots (Text.joinText '.' parts) := by
  rw [dots, dots, Text.joinText, Text.joinText, String.toList_ofList, String.toList_ofList,
    Text.map_glue, Text.map_glue]
  rfl

/-- Neither of the two separators is among the characters. -/
def FreeOfSeparators (cs : List Char) : Prop :=
  '/' ∉ cs ∧ '\\' ∉ cs

theorem map_dots_of_free {cs : List Char} (h : FreeOfSeparators cs) :
    cs.map (fun c => if c = '/' || c = '\\' then '.' else c) = cs := by
  have hkeep : ∀ c ∈ cs, (if c = '/' || c = '\\' then '.' else c) = c := by
    intro c hc
    rw [if_neg]
    rw [Bool.or_eq_true, decide_eq_true_iff, decide_eq_true_iff]
    rintro (rfl | rfl)
    · exact h.1 hc
    · exact h.2 hc
  rw [List.map_congr_left hkeep, List.map_id']

theorem dots_of_free {s : String} (h : FreeOfSeparators s.toList) : dots s = s := by
  rw [dots, map_dots_of_free h, String.ofList_toList]

/-- Parts without separators are dotted as they are. -/
theorem dots_joinText_of_free {parts : List String}
    (h : ∀ part ∈ parts, FreeOfSeparators part.toList) :
    dots (Text.joinText '.' parts) = Text.joinText '.' parts := by
  have hkeep : ∀ piece ∈ parts.map String.toList,
      piece.map (fun c => if c = '/' || c = '\\' then '.' else c) = piece := by
    intro piece hpiece
    obtain ⟨part, hpart, rfl⟩ := List.mem_map.mp hpiece
    exact map_dots_of_free (h part hpart)
  rw [dots, Text.joinText, String.toList_ofList, Text.map_glue, List.map_congr_left hkeep,
    List.map_id']
  rfl

/-! ## Dotted paths of modules -/

variable {short ext : String}

/-- A file with an extension of the family has the dotted path of what stands before it. -/
theorem modulePath_of_mem (hext : ext ∈ Language.python.extensions) :
    modulePath (short ++ "." ++ ext) = withoutEnding (dots short) [packageFile] := by
  have hdots : dots (short ++ "." ++ ext) = dots short ++ "." ++ ext := by
    rw [dots_append, dots_append]
    congr 1
    revert ext
    decide
  rw [modulePath, hdots, withoutEnding_append_of_mem (by decide) hext]

/-- A file with another extension keeps it in its dotted path. -/
theorem modulePath_of_not_mem (hdot : '.' ∉ ext.toList) (hfree : FreeOfSeparators ext.toList)
    (hpackage : ext ≠ packageFile) (hext : ext ∉ Language.python.extensions) :
    modulePath (short ++ "." ++ ext) = dots short ++ "." ++ ext := by
  have hdots : dots (short ++ "." ++ ext) = dots short ++ "." ++ ext := by
    rw [dots_append, dots_append, dots_of_free hfree]
    rfl
  rw [modulePath, hdots, withoutEnding_append_of_not_mem (by decide) hdot hext,
    withoutEnding_append_of_not_mem (by decide) hdot (by simpa using hpackage)]

/-- Without the name of a package file the components are where they began with it. -/
theorem splitText_withoutEnding_prefix (module : String) :
    Text.splitText '.' (withoutEnding module [packageFile]) <+: Text.splitText '.' module := by
  rcases (withoutEnding_eq_iff (by decide)).mp (Eq.refl (withoutEnding module [packageFile])) with
    ⟨e, -, hmodule⟩ | ⟨hself, -⟩
  · have hsplit := congrArg (Text.splitText '.') hmodule
    rw [Text.splitText_append rfl] at hsplit
    rw [hsplit]
    exact List.prefix_append _ _
  · simp only [hself, List.prefix_rfl]

end Cartograph.Dotted
