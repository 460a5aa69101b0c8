import Cartograph.Json.Basic
import Mathlib

/-!
# Values with sorted members

A value is ordered if the keys of each of its objects ascend, so that no key is there twice
(`Json.Ordered`). The canonical form of any value is ordered (`Json.ordered_canonical`) and an
ordered value is its own canonical form (`Json.canonical_eq_self`). As long as no key is there twice
the canonical form has the members that the value has (`Json.member?_canonical`).
-/

namespace Cartograph.Json

/-! ## Induction over values -/

/-- What holds of every value without parts, and of an array or an object as soon as it holds of
all its parts, holds of every value. -/
@[elab_as_elim]
theorem induction {motive : Json → Prop} (null : motive .null) (bool : ∀ b, motive (.bool b))
    (int : ∀ n, motive (.int n)) (decimal : ∀ text, motive (.decimal text))
    (str : ∀ s, motive (.str s))
    (arr : ∀ items, (∀ item ∈ items, motive item) → motive (.arr items))
    (obj : ∀ members, (∀ m ∈ members, motive m.2) → motive (.obj members))
    (value : Json) : motive value :=
  Json.rec (motive_1 := motive) (motive_2 := fun items => ∀ item ∈ items, motive item)
    (motive_3 := fun members => ∀ m ∈ members, motive m.2) (motive_4 := fun m => motive m.2)
    null bool int decimal str arr obj
    (fun _ h => absurd h List.not_mem_nil)
    (fun _ _ hhead htail => List.forall_mem_cons.mpr ⟨hhead, htail⟩)
    (fun _ h => absurd h List.not_mem_nil)
    (fun _ _ hhead htail => List.forall_mem_cons.mpr ⟨hhead, htail⟩)
    (fun _ _ h => h) value

/-! ## Properties of all parts -/

mutual

/-- The value and every part of it, at whatever depth, has the property `p`. -/
def All (p : Json → Prop) : Json → Prop
  | .arr items => p (.arr items) ∧ AllItems p items
  | .obj members => p (.obj members) ∧ AllMembers p members
  | v => p v

/-- What `All` says of every item. -/
def AllItems (p : Json → Prop) : List Json → Prop
  | [] => True
  | v :: rest => v.All p ∧ AllItems p rest

/-- What `All` says of the value of every member. -/
def AllMembers (p : Json → Prop) : List (String × Json) → Prop
  | [] => True
  | (_, v) :: rest => v.All p ∧ AllMembers p rest

end

section

variable {p : Json → Prop}

mutual

instance decidableAll [DecidablePred p] : (value : Json) → Decidable (value.All p)
  | .arr items =>
    have := decidableAllItems items
    inferInstanceAs (Decidable (p (.arr items) ∧ AllItems p items))
  | .obj members =>
    have := decidableAllMembers members
    inferInstanceAs (Decidable (p (.obj members) ∧ AllMembers p members))
  | .null => inferInstanceAs (Decidable (p .null))
  | .bool b => inferInstanceAs (Decidable (p (.bool b)))
  | .int n => inferInstanceAs (Decidable (p (.int n)))
  | .decimal text => inferInstanceAs (Decidable (p (.decimal text)))
  | .str s => inferInstanceAs (Decidable (p (.str s)))

instance decidableAllItems [DecidablePred p] : (items : List Json) → Decidable (AllItems p items)
  | [] => isTrue trivial
  | v :: rest =>
    have := decidableAll v
    have := decidableAllItems rest
    inferInstanceAs (Decidable (v.All p ∧ AllItems p rest))

instance decidableAllMembers [DecidablePred p] :
    (members : List (String × Json)) → Decidable (AllMembers p members)
  | [] => isTrue trivial
  | (_, v) :: rest =>
    have := decidableAll v
    have := decidableAllMembers rest
    inferInstanceAs (Decidable (v.All p ∧ AllMembers p rest))

end

theorem all_arr_iff {items : List Json} :
    (arr items).All p ↔ p (.arr items) ∧ ∀ item ∈ items, item.All p := by
  have hitems : AllItems p items ↔ ∀ item ∈ items, item.All p := by
    induction items with
    | nil => simp [AllItems]
    | cons v rest ih => rw [AllItems, ih, List.forall_mem_cons]
  rw [All, hitems]

theorem all_obj_iff {members : List (String × Json)} :
    (obj members).All p ↔ p (.obj members) ∧ ∀ m ∈ members, m.2.All p := by
  have hmembers : AllMembers p members ↔ ∀ m ∈ members, m.2.All p := by
    induction members with
    | nil => simp [AllMembers]
    | cons m rest ih => rw [AllMembers, ih, List.forall_mem_cons]
  rw [All, hmembers]

end

/-- The keys of an object ascend. -/
def KeysAscend : Json → Prop
  | .obj members => (members.map Prod.fst).Pairwise (· < ·)
  | _ => True

instance : DecidablePred KeysAscend
  | .obj members => inferInstanceAs (Decidable ((members.map Prod.fst).Pairwise (· < ·)))
  | .null | .bool _ | .int _ | .decimal _ | .str _ | .arr _ => isTrue trivial

/-- The keys of every object ascend. -/
def Ordered (value : Json) : Prop :=
  value.All KeysAscend

instance (value : Json) : Decidable value.Ordered :=
  inferInstanceAs (Decidable (value.All KeysAscend))

theorem ordered_arr_iff {items : List Json} :
    (arr items).Ordered ↔ ∀ item ∈ items, item.Ordered := by
  simp only [Ordered, all_arr_iff, KeysAscend, true_and]

theorem ordered_obj_iff {members : List (String × Json)} :
    (obj members).Ordered ↔
      (members.map Prod.fst).Pairwise (· < ·) ∧ ∀ m ∈ members, m.2.Ordered := by
  simp only [Ordered, all_obj_iff, KeysAscend]

/-! ## Canonical forms, part by part -/

theorem canonicalItems_eq_map (items : List Json) :
    canonicalItems items = items.map canonical := by
  induction items with
  | nil => rfl
  | cons v rest ih => rw [canonicalItems, ih, List.map_cons]

theorem canonicalMembers_eq_map (members : List (String × Json)) :
    canonicalMembers members = members.map fun m => (m.1, m.2.canonical) := by
  induction members with
  | nil => rfl
  | cons m rest ih => rw [canonicalMembers, ih, List.map_cons]

@[simp] theorem canonical_arr (items : List Json) :
    (arr items).canonical = .arr (items.map canonical) := by
  rw [canonical, canonicalItems_eq_map]

theorem canonical_obj (members : List (String × Json)) :
    (obj members).canonical = .obj (sortMembers (members.map fun m => (m.1, m.2.canonical))) := by
  rw [canonical, canonicalMembers_eq_map]

/-! ## Sorted members -/

/-- A member is put in or takes the place of another. -/
theorem mem_of_mem_insertMember {key : String} {value : Json} {sorted : List (String × Json)}
    {m : String × Json} (h : m ∈ insertMember key value sorted) :
    m = (key, value) ∨ m ∈ sorted := by
  fun_induction insertMember key value sorted with
  | case1 => exact .inl (List.mem_singleton.mp h)
  | case2 k v rest _ => exact List.mem_cons.mp h
  | case3 v rest _ =>
      rcases List.mem_cons.mp h with h | h
      · exact .inl h
      · exact .inr (List.mem_cons_of_mem _ h)
  | case4 k v rest _ _ ih =>
      rcases List.mem_cons.mp h with rfl | h
      · exact .inr List.mem_cons_self
      · exact (ih h).imp_right (List.mem_cons_of_mem _)

/-- Sorted members stay sorted. -/
theorem pairwise_insertMember {key : String} {value : Json} {sorted : List (String × Json)}
    (h : (sorted.map Prod.fst).Pairwise (· < ·)) :
    ((insertMember key value sorted).map Prod.fst).Pairwise (· < ·) := by
  rw [List.pairwise_map] at h ⊢
  fun_induction insertMember key value sorted with
  | case1 => exact List.pairwise_singleton _ _
  | case2 k v rest hlt =>
      refine List.pairwise_cons.mpr ⟨fun m hm => ?_, h⟩
      rcases List.mem_cons.mp hm with rfl | hm
      · exact hlt
      · exact lt_trans hlt (List.rel_of_pairwise_cons h hm)
  | case3 v rest _ => exact List.pairwise_cons.mpr (List.pairwise_cons.mp h)
  | case4 k v rest hlt hne ih =>
      refine List.pairwise_cons.mpr ⟨fun m hm => ?_, ih h.of_cons⟩
      rcases mem_of_mem_insertMember hm with rfl | hm
      · exact lt_of_le_of_ne (not_lt.mp hlt) (Ne.symm hne)
      · exact List.rel_of_pairwise_cons h hm

/-- A member whose key is past all others goes to the end. -/
theorem insertMember_of_lt {key : String} {value : Json} {sorted : List (String × Json)}
    (h : ∀ m ∈ sorted, m.1 < key) :
    insertMember key value sorted = sorted ++ [(key, value)] := by
  induction sorted with
  | nil => rfl
  | cons m rest ih =>
      have hlt : m.1 < key := h m List.mem_cons_self
      rw [insertMember, if_neg hlt.not_gt, if_neg hlt.ne',
        ih fun n hn => h n (List.mem_cons_of_mem _ hn), List.cons_append]

theorem pairwise_sortMembers (members : List (String × Json)) :
    ((sortMembers members).map Prod.fst).Pairwise (· < ·) := by
  rw [sortMembers]
  exact List.foldlRecOn (motive := fun sorted : List (String × Json) =>
    (sorted.map Prod.fst).Pairwise (· < ·)) members _
    List.Pairwise.nil fun _ h _ _ => pairwise_insertMember h

theorem mem_of_mem_sortMembers {members : List (String × Json)} :
    ∀ m ∈ sortMembers members, m ∈ members := by
  rw [sortMembers]
  refine List.foldlRecOn (motive := fun sorted : List (String × Json) =>
    ∀ m ∈ sorted, m ∈ members) members _
    (fun _ h => absurd h List.not_mem_nil) fun _ h n hn m hm => ?_
  rcases mem_of_mem_insertMember hm with rfl | hm
  · exact hn
  · exact h m hm

/-- Members in order are sorted already. -/
theorem sortMembers_eq_self {members : List (String × Json)}
    (h : (members.map Prod.fst).Pairwise (· < ·)) : sortMembers members = members := by
  have hfold : ∀ sorted : List (String × Json),
      ((sorted ++ members).map Prod.fst).Pairwise (· < ·) →
        members.foldl (fun sorted m => insertMember m.1 m.2 sorted) sorted = sorted ++ members := by
    clear h
    induction members with
    | nil => exact fun _ _ => (List.append_nil _).symm
    | cons m rest ih =>
        intro sorted h
        have hend : ∀ n ∈ sorted, n.1 < m.1 := fun n hn =>
          (List.pairwise_append.mp (List.pairwise_map.mp h)).2.2 n hn m List.mem_cons_self
        rw [List.append_cons] at h ⊢
        rw [List.foldl_cons, insertMember_of_lt hend, ih _ h]
  rw [sortMembers, hfold [] h, List.nil_append]

/-! ## Looking up members -/

theorem mem_of_member?_eq_some {key : String} {value : Json} {members : List (String × Json)}
    (h : member? key members = some value) : (key, value) ∈ members := by
  induction members with
  | nil => cases h
  | cons m rest ih =>
      obtain ⟨k, v⟩ := m
      rw [member?] at h
      split at h
      · rename_i hkey
        rw [← hkey, Option.some.inj h]
        exact List.mem_cons_self
      · exact List.mem_cons_of_mem _ (ih h)

theorem member?_eq_none_iff {key : String} {members : List (String × Json)} :
    member? key members = none ↔ key ∉ members.map Prod.fst := by
  induction members with
  | nil => simp [member?]
  | cons m rest ih =>
      rw [member?, List.map_cons, List.mem_cons, not_or, ← ih, eq_comm (a := key)]
      split <;> simp [*]

theorem member?_map_value (f : Json → Json) (key : String) (members : List (String × Json)) :
    member? key (members.map fun m => (m.1, f m.2)) = (member? key members).map f := by
  induction members with
  | nil => rfl
  | cons m rest ih =>
      rw [List.map_cons, member?, member?, ih]
      split <;> rfl

/-- Sorting keeps every member, as long as no key is there twice. -/
theorem member?_sortMembers {members : List (String × Json)} (h : (members.map Prod.fst).Nodup)
    (key : String) : member? key (sortMembers members) = member? key members := by
  have hfold : ∀ sorted : List (String × Json),
      member? key (members.foldl (fun sorted m => insertMember m.1 m.2 sorted) sorted)
        = (member? key members).or (member? key sorted) := by
    induction members with
    | nil => exact fun _ => rfl
    | cons m rest ih =>
        intro sorted
        rw [List.map_cons, List.nodup_cons] at h
        rw [List.foldl_cons, ih h.2, member?]
        by_cases hkey : m.1 = key
        · subst hkey
          rw [member?_eq_none_iff.mpr h.1, member?_insertMember, if_pos rfl, Option.none_or,
            Option.some_or]
        · rw [member?_insertMember_of_ne hkey, if_neg hkey]
  rw [sortMembers, hfold, member?, Option.or_none]

/-- **Members of the canonical form** are those of the value, in their canonical form. -/
theorem member?_canonical {members : List (String × Json)} (h : (members.map Prod.fst).Nodup)
    (key : String) :
    member? key (sortMembers (members.map fun m => (m.1, m.2.canonical)))
      = (member? key members).map canonical := by
  rw [member?_sortMembers (by rwa [List.map_map]), member?_map_value]

/-! ## Canonical forms -/

/-- **A canonical form is ordered.** -/
theorem ordered_canonical (value : Json) : value.canonical.Ordered := by
  induction value using induction with
  | arr items ih =>
      rw [canonical_arr, ordered_arr_iff]
      exact List.forall_mem_map.mpr ih
  | obj members ih =>
      rw [canonical_obj, ordered_obj_iff]
      refine ⟨pairwise_sortMembers _, fun m hm => ?_⟩
      obtain ⟨n, hn, rfl⟩ := List.mem_map.mp (mem_of_mem_sortMembers m hm)
      exact ih n hn
  | _ => trivial

/-- **An ordered value is its own canonical form.** -/
theorem canonical_eq_self {value : Json} (h : value.Ordered) : value.canonical = value := by
  induction value using induction with
  | arr items ih =>
      rw [ordered_arr_iff] at h
      rw [canonical_arr, List.map_congr_left fun item hitem => ih item hitem (h item hitem),
        List.map_id']
  | obj members ih =>
      rw [ordered_obj_iff] at h
      have hmembers : members.map (fun m => (m.1, m.2.canonical)) = members := by
        refine (List.map_congr_left fun m hm => ?_).trans (List.map_id members)
        rw [ih m hm (h.2 m hm), id]
      rw [canonical_obj, hmembers, sortMembers_eq_self h.1]
  | _ => rfl

end Cartograph.Json
