import Cartograph.Proofs.Imports.Tables
import Cartograph.Python.Entities
import Mathlib.Data.List.Basic

/-!
# Places in a tree

A place in a tree is the list of the positions of the parts that lead to it. In the order of the text
a form comes before its parts, and these come one after the other; so places come in the order of
lists of numbers. Main statements: the walk over a tree meets what stands at its places, each once
and in this order (`mem_walk_iff`, `pairwise_walk`), and the functions of a module are those that
stand in it, in this order (`mem_functions_iff`, `pairwise_functions`).
-/

namespace Cartograph.Python

namespace Tree

/-! ## What stands at a place -/

/-- What stands at a place of a tree, together with the decorators in front of it. -/
def at? (decorators : List Tree) (t : Tree) : List Nat → Option Visit
  | [] => some ⟨decorators, t⟩
  | i :: place =>
    match t.parts[i]? with
    | some part => at? (decoratorsFor t.form t.parts) part place
    | none => none

/-- The place has the property, and no place before it has it. -/
def FirstAt (p : List Nat → Visit → Prop) (place : List Nat) (visit : Visit) : Prop :=
  p place visit ∧ ∀ other v, p other v → ¬ other < place

theorem at?_cons_eq_some_iff {decorators : List Tree} {t : Tree} {i : Nat} {place : List Nat}
    {visit : Visit} : t.at? decorators (i :: place) = some visit ↔
      ∃ part, t.parts[i]? = some part ∧
        part.at? (decoratorsFor t.form t.parts) place = some visit := by
  rw [at?]
  cases t.parts[i]? <;> simp

/-! ## The walk with places -/

mutual

/-- The walk over a tree, with the place of everything that it meets. -/
def walk (decorators : List Tree) : Tree → List (List Nat × Visit)
  | .node form line parts =>
    ([], ⟨decorators, .node form line parts⟩) :: walkAll 0 (decoratorsFor form parts) parts

/-- The walks over some parts, the first of which stands at position `i`. -/
def walkAll (i : Nat) (decorators : List Tree) : List Tree → List (List Nat × Visit)
  | [] => []
  | part :: rest =>
    (walk decorators part).map (fun met => (i :: met.1, met.2)) ++ walkAll (i + 1) decorators rest

end

mutual

/-- Apart from the places it is the same walk. -/
theorem map_snd_walk (decorators : List Tree) :
    ∀ t : Tree, (t.walk decorators).map Prod.snd = t.visits decorators
  | .node form line parts => by
      rw [walk, visits, List.map_cons, map_snd_walkAll]

theorem map_snd_walkAll (i : Nat) (decorators : List Tree) :
    ∀ ts : List Tree, (walkAll i decorators ts).map Prod.snd = visitsAll decorators ts
  | [] => rfl
  | part :: rest => by
      rw [walkAll, visitsAll, List.map_append, List.map_map, map_snd_walkAll, ← map_snd_walk]
      rfl

end

mutual

/-- **The walk meets what stands at the places** of the tree. -/
theorem mem_walk_iff (decorators : List Tree) (place : List Nat) (visit : Visit) :
    ∀ t : Tree, (place, visit) ∈ t.walk decorators ↔ t.at? decorators place = some visit
  | .node form line parts => by
      rw [walk, List.mem_cons, mem_walkAll_iff]
      cases place with
      | nil =>
          rw [at?, Option.some_inj]
          constructor
          · rintro (heq | ⟨i, rest, part, hplace, -⟩)
            · exact (Prod.mk.inj heq).2.symm
            · cases hplace
          · rintro rfl
            exact Or.inl rfl
      | cons i place =>
          rw [at?_cons_eq_some_iff]
          constructor
          · rintro (heq | ⟨j, rest, part, hplace, hpart, hmet⟩)
            · cases heq
            · obtain ⟨rfl, rfl⟩ := List.cons.inj hplace
              rw [Nat.zero_add]
              exact ⟨part, hpart, hmet⟩
          · rintro ⟨part, hpart, hmet⟩
            exact Or.inr ⟨i, place, part, by rw [Nat.zero_add], hpart, hmet⟩

theorem mem_walkAll_iff (i : Nat) (decorators : List Tree) (place : List Nat) (visit : Visit) :
    ∀ ts : List Tree, (place, visit) ∈ walkAll i decorators ts ↔
      ∃ j rest part, place = (i + j) :: rest ∧ ts[j]? = some part ∧
        part.at? decorators rest = some visit
  | [] => by simp [walkAll]
  | first :: ts => by
      rw [walkAll, List.mem_append, mem_walkAll_iff]
      constructor
      · rintro (hfirst | ⟨j, rest, part, rfl, hpart, hmet⟩)
        · obtain ⟨⟨rest, v⟩, hmet, heq⟩ := List.mem_map.mp hfirst
          obtain ⟨rfl, rfl⟩ := Prod.mk.inj heq
          exact ⟨0, rest, first, rfl, rfl, (mem_walk_iff decorators rest v first).mp hmet⟩
        · exact ⟨j + 1, rest, part, by rw [Nat.add_assoc, Nat.add_comm 1], hpart, hmet⟩
      · rintro ⟨j, rest, part, rfl, hpart, hmet⟩
        cases j with
        | zero =>
            obtain rfl : first = part := Option.some.inj hpart
            exact Or.inl (List.mem_map.mpr
              ⟨(rest, visit), (mem_walk_iff decorators rest visit first).mpr hmet, rfl⟩)
        | succ j => exact Or.inr ⟨j, rest, part, by rw [Nat.add_assoc, Nat.add_comm 1], hpart, hmet⟩

end

mutual

/-- **The walk goes in the order of the text.** -/
theorem pairwise_walk (decorators : List Tree) :
    ∀ t : Tree, (t.walk decorators).Pairwise fun a b => a.1 < b.1
  | .node form line parts => by
      rw [walk, List.pairwise_cons]
      refine ⟨fun met hmet => ?_, pairwise_walkAll 0 _ parts⟩
      obtain ⟨j, rest, part, heq, -⟩ := (mem_walkAll_iff 0 _ met.1 met.2 parts).mp hmet
      rw [heq]
      exact List.nil_lt_cons _ _

theorem pairwise_walkAll (i : Nat) (decorators : List Tree) :
    ∀ ts : List Tree, (walkAll i decorators ts).Pairwise fun a b => a.1 < b.1
  | [] => List.Pairwise.nil
  | first :: ts => by
      rw [walkAll, List.pairwise_append, List.pairwise_map]
      refine ⟨(pairwise_walk decorators first).imp fun {a b} hab => ?_,
        pairwise_walkAll (i + 1) decorators ts, fun a ha b hb => ?_⟩
      · exact List.cons_lt_cons_iff.mpr (Or.inr ⟨rfl, hab⟩)
      · -- what is in an earlier part comes before what is in a later one
        obtain ⟨met, -, rfl⟩ := List.mem_map.mp ha
        obtain ⟨j, rest, part, heq, -⟩ := (mem_walkAll_iff (i + 1) decorators b.1 b.2 ts).mp hb
        rw [heq]
        exact List.cons_lt_cons_iff.mpr (Or.inl (by omega))

end

/-! ## The functions of a module -/

/-- The tree is a function. -/
def isFunction (t : Tree) : Bool :=
  match t.form with
  | .functionDef _ _ => true
  | _ => false

/-- A part of a module is a function, or it has decorators, and the first function behind them. -/
inductive FunctionIn (part : Tree) : List Nat → Visit → Prop
  | plain (function : part.isFunction = true) : FunctionIn part [] ⟨[], part⟩
  | decorated {j : Nat} {definition : Tree} (form : part.form = .decorated)
      (definition_at : part.parts[j]? = some definition) (function : definition.isFunction = true)
      (first : ∀ k other, part.parts[k]? = some other → other.isFunction = true → ¬ k < j) :
      FunctionIn part [j] ⟨decoratorsOf part.parts, definition⟩

/-- A function of the module, decorated or not, stands at the place. -/
def InModule (t : Tree) (place : List Nat) (visit : Visit) : Prop :=
  ∃ i rest part, place = i :: rest ∧ t.parts[i]? = some part ∧ part.FunctionIn rest visit

/-- The function that one part of a module is or has decorators for, with its place in the part. -/
def functionIn? (part : Tree) : Option (List Nat × Visit) :=
  match part.form with
  | .functionDef _ _ => some ([], ⟨[], part⟩)
  | .decorated => (part.parts.zipIdx.find? fun p => p.1.isFunction).map fun p =>
      ([p.2], ⟨decoratorsOf part.parts, p.1⟩)
  | _ => none

/-- The functions of a module, with their places. -/
def functions (t : Tree) : List (List Nat × Visit) :=
  t.parts.zipIdx.filterMap fun p => (functionIn? p.1).map fun met => (p.2 :: met.1, met.2)

/-- Apart from the places these are the functions of the module. -/
theorem map_snd_functions (t : Tree) : t.functions.map Prod.snd = moduleFunctions t := by
  have hpart : ∀ part : Tree, (functionIn? part).map Prod.snd =
      match part.form with
      | .functionDef _ _ => some ⟨[], part⟩
      | .decorated => (part.parts.find? isFunction).map fun p => ⟨decoratorsOf part.parts, p⟩
      | _ => none := by
    intro part
    unfold functionIn?
    cases part.form
    case decorated =>
      have hfind : part.parts.find? isFunction
          = (part.parts.zipIdx.find? fun p => p.1.isFunction).map Prod.fst := by
        conv => lhs; rw [← List.zipIdx_map_fst 0 part.parts, List.find?_map]
        rfl
      simp only [hfind, Option.map_map]
      rfl
    all_goals rfl
  have hfunctions : t.functions.map Prod.snd
      = (t.parts.zipIdx.map Prod.fst).filterMap fun part => (functionIn? part).map Prod.snd := by
    rw [functions, List.map_filterMap, List.filterMap_map]
    exact List.filterMap_congr fun p _ => Option.map_map _ _ _
  rw [hfunctions, List.zipIdx_map_fst]
  exact List.filterMap_congr fun part _ => hpart part

/-- Positions ascend. -/
theorem pairwise_zipIdx (ts : List Tree) : ts.zipIdx.Pairwise fun a b => a.2 < b.2 := by
  rw [← List.pairwise_map, List.zipIdx_map_snd]
  exact List.pairwise_lt_range' 1

/-- **The functions go in the order of the text.** -/
theorem pairwise_functions (t : Tree) : t.functions.Pairwise fun a b => a.1 < b.1 := by
  rw [functions, List.pairwise_filterMap]
  refine (pairwise_zipIdx t.parts).imp fun {a b} hab met hmet other hother => ?_
  obtain ⟨_, -, rfl⟩ := Option.map_eq_some_iff.mp hmet
  obtain ⟨_, -, rfl⟩ := Option.map_eq_some_iff.mp hother
  exact List.cons_lt_cons_iff.mpr (Or.inl hab)

/-- Decorators stand in front of the first function behind them. -/
theorem find?_isFunction_eq_some_iff {ts : List Tree} {definition : Tree} {j : Nat} :
    (ts.zipIdx.find? fun p => p.1.isFunction) = some (definition, j) ↔
      ts[j]? = some definition ∧ definition.isFunction = true ∧
        ∀ k other, ts[k]? = some other → other.isFunction = true → ¬ k < j := by
  rw [find?_eq_some_iff_firstWith fun _ => Iff.rfl,
    firstWith_iff_of_pairwise (fun hab => Nat.lt_asymm hab) (pairwise_zipIdx ts)]
  simp only [List.mem_zipIdx_iff_getElem?, Prod.forall]
  exact ⟨fun h => ⟨h.1, h.2.1, fun k other => h.2.2 other k⟩,
    fun h => ⟨h.1, h.2.1, fun other k => h.2.2 k other⟩⟩

theorem functionIn?_eq_some_iff {part : Tree} {place : List Nat} {visit : Visit} :
    functionIn? part = some (place, visit) ↔ part.FunctionIn place visit := by
  constructor
  · intro h
    unfold functionIn? at h
    split at h
    · rename_i hform
      cases h
      exact .plain (by rw [isFunction, hform])
    · rename_i hform
      obtain ⟨⟨definition, j⟩, hfind, heq⟩ := Option.map_eq_some_iff.mp h
      cases heq
      obtain ⟨hdefinition, hfunction, hfirst⟩ := find?_isFunction_eq_some_iff.mp hfind
      exact .decorated hform hdefinition hfunction hfirst
    · cases h
  · rintro (hfunction | ⟨hform, hdefinition, hfunction, hfirst⟩)
    · unfold isFunction at hfunction
      unfold functionIn?
      split at hfunction
      · rename_i hform
        rw [hform]
      · cases hfunction
    · rw [functionIn?, hform]
      dsimp only
      rw [find?_isFunction_eq_some_iff.mpr ⟨hdefinition, hfunction, hfirst⟩]
      rfl

/-- **These are the functions that stand in the module.** -/
theorem mem_functions_iff {t : Tree} {place : List Nat} {visit : Visit} :
    (place, visit) ∈ t.functions ↔ t.InModule place visit := by
  rw [functions, List.mem_filterMap]
  constructor
  · rintro ⟨⟨part, i⟩, hpart, hmet⟩
    obtain ⟨⟨rest, met⟩, hfunction, heq⟩ := Option.map_eq_some_iff.mp hmet
    cases heq
    exact ⟨i, rest, part, rfl, List.mem_zipIdx_iff_getElem?.mp hpart,
      functionIn?_eq_some_iff.mp hfunction⟩
  · rintro ⟨i, rest, part, rfl, hpart, hfunction⟩
    refine ⟨(part, i), List.mem_zipIdx_iff_getElem?.mpr hpart, ?_⟩
    rw [functionIn?_eq_some_iff.mpr hfunction]
    rfl

/-! ## First places -/

/-- What a list with places has first stands at the first place. -/
theorem firstWith_iff_firstAt {met : List (List Nat × Visit)} {At : List Nat → Visit → Prop}
    (hmem : ∀ place visit, (place, visit) ∈ met ↔ At place visit)
    (hordered : met.Pairwise fun a b => a.1 < b.1) (p : Visit → Prop) {place : List Nat}
    {visit : Visit} : FirstWith (fun m => p m.2) met (place, visit) ↔
      FirstAt (fun place visit => At place visit ∧ p visit) place visit := by
  rw [firstWith_iff_of_pairwise (fun hab => List.lt_asymm hab) hordered, FirstAt, hmem]
  simp only [Prod.forall, hmem, and_assoc, and_imp]

end Tree

end Cartograph.Python
