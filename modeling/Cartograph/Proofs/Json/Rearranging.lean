import Cartograph.Proofs.Json.Ordered

/-!
# Reading whatever the order of members

A change to a value that does no more than to move the members of objects (`Json.Rearranges`) is not
seen by a reader that looks members up by their keys. To write a value as it is and to write it in
its canonical form are two such changes (`Json.rearranges_id`, `Json.rearranges_canonical`).
-/

namespace Cartograph.Json

/-! ## Rearranging -/

/-- Nothing but the order of the members of objects is changed, and not where they are sorted. -/
structure Rearranges (form : Json → Json) : Prop where
  ordered : ∀ {value}, value.Ordered → form value = value
  bool : ∀ b, form (.bool b) = .bool b
  int : ∀ n, form (.int n) = .int n
  str : ∀ s, form (.str s) = .str s
  arr : ∀ items, form (.arr items) = .arr (items.map form)
  obj : ∀ members, (members.map Prod.fst).Nodup →
    ∃ moved, form (.obj members) = .obj moved ∧
      ∀ key, member? key moved = (member? key members).map form

theorem rearranges_id : Rearranges id where
  ordered _ := rfl
  bool _ := rfl
  int _ := rfl
  str _ := rfl
  arr items := by rw [List.map_id, id]
  obj members _ := ⟨members, rfl, fun _ => (Option.map_id_apply).symm⟩

theorem rearranges_canonical : Rearranges canonical where
  ordered := canonical_eq_self
  bool _ := rfl
  int _ := rfl
  str _ := rfl
  arr := canonical_arr
  obj members h := ⟨_, canonical_obj members, member?_canonical h⟩

/-! ## Reading lists -/

section

variable {α : Type} {read : Json → Option α} {write : α → Json}

theorem mapM_map_eq_some {β : Type} {f : α → β} {g : β → Option α} {xs : List α}
    (h : ∀ x ∈ xs, g (f x) = some x) : (xs.map f).mapM g = some xs := by
  induction xs with
  | nil => rfl
  | cons x rest ih =>
      rw [List.forall_mem_cons] at h
      rw [List.map_cons, List.mapM_cons, h.1, ih h.2]
      rfl

/-- A list reads back as soon as each item does. -/
theorem listOf?_map {xs : List α} (h : ∀ x ∈ xs, read (write x) = some x) :
    listOf? read (.arr (xs.map write)) = some xs :=
  mapM_map_eq_some h

theorem Rearranges.listOf? {form : Json → Json} (hform : Rearranges form) {xs : List α}
    (h : ∀ x ∈ xs, read (form (write x)) = some x) :
    Json.listOf? read (form (.arr (xs.map write))) = some xs := by
  rw [hform.arr, List.map_map]
  exact listOf?_map h

theorem exists_mem_of_mapM_eq_some {β : Type} {f : β → Option α} {ys : List β} {xs : List α}
    (h : ys.mapM f = some xs) : ∀ x ∈ xs, ∃ y ∈ ys, f y = some x := by
  induction ys generalizing xs with
  | nil =>
      obtain rfl := Option.some.inj h
      exact fun _ hx => absurd hx List.not_mem_nil
  | cons y rest ih =>
      rw [List.mapM_cons] at h
      simp only [Option.bind_eq_bind, Option.bind_eq_some_iff, Option.pure_def,
        Option.some.injEq] at h
      obtain ⟨first, hfirst, others, hothers, rfl⟩ := h
      refine List.forall_mem_cons.mpr ⟨⟨y, List.mem_cons_self, hfirst⟩, fun x hx => ?_⟩
      obtain ⟨z, hz, hread⟩ := ih hothers x hx
      exact ⟨z, List.mem_cons_of_mem _ hz, hread⟩

/-- Everything in a list that was read stems from a part of the value. -/
theorem exists_ordered_of_listOf? {value : Json} {xs : List α} (hvalue : value.Ordered)
    (h : listOf? read value = some xs) : ∀ x ∈ xs, ∃ item, item.Ordered ∧ read item = some x := by
  cases value with
  | arr items =>
      intro x hx
      obtain ⟨item, hitem, hread⟩ := exists_mem_of_mapM_eq_some h x hx
      exact ⟨item, ordered_arr_iff.mp hvalue item hitem, hread⟩
  | _ => cases h

end

/-! ## Parts of ordered values -/

theorem Ordered.member? {members : List (String × Json)} (h : (obj members).Ordered) {key : String}
    {value : Json} (hvalue : Json.member? key members = some value) : value.Ordered :=
  (ordered_obj_iff.mp h).2 _ (mem_of_member?_eq_some hvalue)

end Cartograph.Json
