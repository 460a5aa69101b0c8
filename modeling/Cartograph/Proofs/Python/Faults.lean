import Cartograph.Proofs.Python.Grammar
import Cartograph.Proofs.Python.Places

/-!
# Faults of Python files

A file that cannot be read to its end is refused, with the line of a fault in its tree. The search
for the line looks only into parts that have a fault in them; it finds the first fault in the order
of the text (`Tree.firstFault?_eq_some_iff`). A line is found whenever there is a fault, and it is a
line of the text. Main statement: what is reported of a refused file is the line of its first fault,
never that no line was found (`first_fault_reported`).
-/

namespace Cartograph.Python

namespace Tree

/-! ## Faults on a walk -/

mutual

/-- A tree has a fault if a walk through it meets one. -/
theorem hasFault_eq_any (decorators : List Tree) :
    ∀ t : Tree, t.hasFault = (t.visits decorators).any fun visit => isFault visit.tree.form
  | .node form line parts => by
      rw [hasFault, visits, List.any_cons, ← anyFault_eq_any]
      rfl

theorem anyFault_eq_any (decorators : List Tree) :
    ∀ ts : List Tree, anyFault ts =
      (visitsAll decorators ts).any fun visit => isFault visit.tree.form
  | [] => rfl
  | first :: rest => by
      rw [anyFault, visitsAll, List.any_append, ← hasFault_eq_any, ← anyFault_eq_any]

end

mutual

/-- The line that is found is that of the first fault that a walk through the tree meets. -/
theorem firstFault?_eq_find? (decorators : List Tree) :
    ∀ t : Tree, t.firstFault? =
      ((t.visits decorators).find? fun visit => isFault visit.tree.form).map fun visit =>
        visit.tree.line
  | .node form line parts => by
      rw [firstFault?, visits, List.find?_cons,
        firstFaultAmong?_eq_find? (decoratorsFor form parts)]
      cases hfault : isFault form <;> simp [Tree.form, Tree.line, hfault]

theorem firstFaultAmong?_eq_find? (decorators : List Tree) :
    ∀ ts : List Tree, firstFaultAmong? ts =
      ((visitsAll decorators ts).find? fun visit => isFault visit.tree.form).map fun visit =>
        visit.tree.line
  | [] => rfl
  | first :: rest => by
      rw [firstFaultAmong?, visitsAll, List.find?_append, hasFault_eq_any decorators,
        ← List.isSome_find?, firstFault?_eq_find? decorators,
        firstFaultAmong?_eq_find? decorators]
      cases (first.visits decorators).find? fun visit => isFault visit.tree.form <;> rfl

end

/-! ## The first fault -/

/-- A fault stands at the place. -/
def FaultAt (t : Tree) (place : List Nat) (visit : Visit) : Prop :=
  t.at? [] place = some visit ∧ isFault visit.tree.form = true

/-- **A tree has a fault** if one stands in it, be it the tree itself or deep in its parts. -/
theorem hasFault_iff {t : Tree} : t.hasFault = true ↔ ∃ place visit, t.FaultAt place visit := by
  rw [hasFault_eq_any [], ← map_snd_walk, List.any_map, List.any_eq_true, Prod.exists]
  exact exists_congr fun place => exists_congr fun visit =>
    and_congr_left fun _ => mem_walk_iff [] place visit t

/-- **The line that is found is that of the first fault** in the order of the text. -/
theorem firstFault?_eq_some_iff {t : Tree} {line : Nat} :
    t.firstFault? = some line ↔
      ∃ place visit, FirstAt t.FaultAt place visit ∧ visit.tree.line = line := by
  rw [firstFault?_eq_find? [], ← map_snd_walk, List.find?_map, Option.map_map,
    Option.map_eq_some_iff, Prod.exists]
  refine exists_congr fun place => exists_congr fun visit => and_congr_left fun _ => ?_
  exact (find?_eq_some_iff_firstWith fun _ => Iff.rfl).trans
    (firstWith_iff_firstAt (fun place visit => mem_walk_iff [] place visit t) (pairwise_walk [] t)
      fun visit => isFault visit.tree.form = true)

/-- A line is found exactly if there is a fault. -/
theorem isSome_firstFault? (t : Tree) : t.firstFault?.isSome = t.hasFault := by
  rw [firstFault?_eq_find? [], Option.isSome_map, List.isSome_find?, ← hasFault_eq_any]

end Tree

/-! ## Reports -/

/-- What stands in the tree of a text stands on a line of the text. -/
theorem Tree.line_ofText {text : List Char} {place : List Nat} {visit : Tree.Visit}
    (h : (Tree.ofText text).at? [] place = some visit) :
    1 ≤ visit.tree.line ∧ visit.tree.line ≤ lineCount text := by
  have hmet : visit ∈ (Tree.ofText text).visits [] := by
    rw [← map_snd_walk]
    exact List.mem_map_of_mem ((mem_walk_iff [] place visit _).mpr h)
  exact ((every_ofText text).of_mem_visits hmet).2

/-- A file is refused exactly if there is a line to report. -/
theorem fragment_eq_error_iff {file : SourceFile} {text : List Char} {error : ExtractionError} :
    fragment file text = .error error ↔
      ∃ line, (Tree.ofText text).firstFault? = some line ∧ error = .malformed file.path line := by
  constructor
  · intro h
    unfold fragment at h
    dsimp only at h
    split at h
    · rename_i hfault
      obtain ⟨line, hline⟩ := Option.isSome_iff_exists.mp
        ((Tree.isSome_firstFault? (Tree.ofText text)).trans hfault)
      rw [hline, Option.getD_some] at h
      exact ⟨line, hline, (Except.error.inj h).symm⟩
    · cases h
  · rintro ⟨line, hline, rfl⟩
    have hfault : (Tree.ofText text).hasFault = true := by
      rw [← Tree.isSome_firstFault?, hline, Option.isSome_some]
    rw [fragment, if_pos hfault, hline, Option.getD_some]

/-- **The first fault is reported.** -/
theorem first_fault_reported :
    (∀ t : Tree, (t.hasFault = true ↔ ∃ place visit, t.FaultAt place visit) ∧
      t.firstFault?.isSome = t.hasFault ∧
      ∀ line, t.firstFault? = some line ↔
        ∃ place visit, Tree.FirstAt t.FaultAt place visit ∧ visit.tree.line = line) ∧
    ∀ (file : SourceFile) (text : List Char) (error : ExtractionError),
      fragment file text = .error error ↔
        ∃ place visit, Tree.FirstAt (Tree.ofText text).FaultAt place visit ∧
          error = .malformed file.path visit.tree.line ∧
          1 ≤ visit.tree.line ∧ visit.tree.line ≤ lineCount text := by
  refine ⟨fun t => ⟨Tree.hasFault_iff, Tree.isSome_firstFault? t, fun line =>
    Tree.firstFault?_eq_some_iff⟩, fun file text error => ?_⟩
  rw [fragment_eq_error_iff]
  constructor
  · rintro ⟨line, hline, rfl⟩
    obtain ⟨place, visit, hfirst, rfl⟩ := Tree.firstFault?_eq_some_iff.mp hline
    exact ⟨place, visit, hfirst, rfl, Tree.line_ofText hfirst.1.1⟩
  · rintro ⟨place, visit, hfirst, rfl, -⟩
    exact ⟨visit.tree.line, Tree.firstFault?_eq_some_iff.mpr ⟨place, visit, hfirst, rfl⟩, rfl⟩

end Cartograph.Python
