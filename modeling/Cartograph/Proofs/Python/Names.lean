import Cartograph.Proofs.Text.Names
import Cartograph.Python.Reader
import Mathlib.Logic.Basic

/-!
# Names of definitions

What stands behind `class` or `def` is read as one word, and a word is an identifier
(`isIdentifier_of_needName`). A tree is well named if every class and every function in it has an
identifier for a name, and so is then all that a walk through it meets
(`Tree.named_of_mem_visits`).
-/

namespace Cartograph.Python

/-! ## Identifiers -/

/-- The front of a text that is read as a word is an identifier. -/
theorem isIdentifier_of_read {cs : List Char} {text : String}
    (h : (Token.read cs).1 = .word text) : Text.isIdentifier text = true := by
  unfold Token.read at h
  split at h
  · cases h
  · rename_i c rest
    split at h
    · cases h
    · split at h
      · rename_i hstart
        cases h
        rw [Text.isIdentifier, String.toList_ofList]
        exact Bool.and_eq_true_iff.mpr ⟨hstart, List.all_takeWhile⟩
      · -- no other token is a word
        dsimp only at h
        split at h
        · cases h
        · split at h
          · cases h
          · split at h
            · split at h <;> cases h
            · cases h

/-- A word at the next token is an identifier. -/
theorem isIdentifier_of_needName {p : Place} {c d : Cursor} {name : String}
    (h : needName p c.next = .ok (name, d)) : Text.isIdentifier name = true := by
  unfold needName at h
  split at h
  · rename_i text htoken
    split at h
    · cases h
    · cases h
      exact isIdentifier_of_read htoken
  · cases h

/-! ## Trees -/

/-- A definition has an identifier for a name. -/
def Form.Named (form : Form) : Prop :=
  (∀ text, form = .classDef text → Text.isIdentifier text = true) ∧
    ∀ text isAsync, form = .functionDef text isAsync → Text.isIdentifier text = true

mutual

/-- Every definition in the tree has an identifier for a name. -/
def Tree.Named : Tree → Prop
  | .node form _ parts => form.Named ∧ Tree.AllNamed parts

/-- Every definition in one of the trees has an identifier for a name. -/
def Tree.AllNamed : List Tree → Prop
  | [] => True
  | part :: rest => part.Named ∧ Tree.AllNamed rest

end

attribute [grind =] Form.Named

theorem Form.named_other : Form.other.Named := by
  simp [Form.Named]

namespace Tree

/-- What is among good trees is a good tree. -/
theorem AllNamed.named {ts : List Tree} (h : AllNamed ts) {t : Tree} (ht : t ∈ ts) : t.Named := by
  induction ts with
  | nil => cases ht
  | cons first rest ih =>
      rcases List.mem_cons.mp ht with rfl | ht
      · exact h.1
      · exact ih h.2 ht

namespace Named

theorem form {t : Tree} (h : t.Named) : t.form.Named := by
  cases t
  exact h.1

theorem parts {t : Tree} (h : t.Named) : AllNamed t.parts := by
  cases t
  exact h.2

end Named

mutual

/-- A walk through a good tree meets good trees only. -/
theorem named_of_mem_visits {decorators : List Tree} {visit : Visit} :
    ∀ {t : Tree}, t.Named → visit ∈ t.visits decorators → visit.tree.Named
  | .node form line parts, h, hvisit => by
      rw [visits] at hvisit
      rcases List.mem_cons.mp hvisit with rfl | hvisit
      · exact h
      · exact named_of_mem_visitsAll h.2 hvisit

/-- Walks through good trees meet good trees only. -/
theorem named_of_mem_visitsAll {decorators : List Tree} {visit : Visit} :
    ∀ {ts : List Tree}, AllNamed ts → visit ∈ visitsAll decorators ts → visit.tree.Named
  | [], _, hvisit => by cases hvisit
  | first :: rest, h, hvisit => by
      rw [visitsAll] at hvisit
      rcases List.mem_append.mp hvisit with hvisit | hvisit
      · exact named_of_mem_visits h.1 hvisit
      · exact named_of_mem_visitsAll h.2 hvisit

end

end Tree

end Cartograph.Python
