import Cartograph.Imports.Table

/-!
# Tables of names

An item of a list may be known by several names. A table that is built from the items, each under
all of its names, leads from a name to the first item that has it, or to the last one if later
entries replace earlier ones (`getElem?_firstWins_names`, `getElem?_lastWins_names`). First and last
are said of lists themselves, as places where they can be parted (`FirstWith`, `LastWith`).
-/

namespace Cartograph

/-! ## First and last -/

section

variable {α : Type} {p : α → Prop} {items : List α} {item : α}

/-- The item has the property, and no item before it has it. -/
def FirstWith (p : α → Prop) (items : List α) (item : α) : Prop :=
  ∃ before after, items = before ++ item :: after ∧ p item ∧ ∀ other ∈ before, ¬ p other

/-- The item has the property, and no item behind it has it. -/
def LastWith (p : α → Prop) (items : List α) (item : α) : Prop :=
  ∃ before after, items = before ++ item :: after ∧ p item ∧ ∀ other ∈ after, ¬ p other

theorem FirstWith.mem (h : FirstWith p items item) : item ∈ items := by
  obtain ⟨before, after, rfl, -⟩ := h
  simp

theorem FirstWith.holds (h : FirstWith p items item) : p item := by
  obtain ⟨-, -, -, hitem, -⟩ := h
  exact hitem

/-- Which item is the first depends on the items only. -/
theorem FirstWith.congr {q : α → Prop} (heq : ∀ other ∈ items, p other ↔ q other)
    (h : FirstWith p items item) : FirstWith q items item := by
  obtain ⟨before, after, rfl, hitem, hbefore⟩ := h
  refine ⟨before, after, rfl, (heq item (by simp)).mp hitem, fun other hother hq => ?_⟩
  exact hbefore other hother ((heq other (List.mem_append_left _ hother)).mpr hq)

theorem not_firstWith_nil : ¬ FirstWith p [] item :=
  fun h => absurd h.mem List.not_mem_nil

/-- The first item is passed over only if it lacks the property. -/
theorem firstWith_cons_iff {first : α} :
    FirstWith p (first :: items) item ↔
      p first ∧ item = first ∨ ¬ p first ∧ FirstWith p items item := by
  constructor
  · rintro ⟨before, after, hsplit, hitem, hbefore⟩
    cases before with
    | nil =>
        obtain ⟨rfl, -⟩ := List.cons.inj hsplit
        exact Or.inl ⟨hitem, rfl⟩
    | cons other before =>
        obtain ⟨rfl, hrest⟩ := List.cons.inj hsplit
        refine Or.inr ⟨hbefore _ List.mem_cons_self, before, after, hrest, hitem, ?_⟩
        exact fun other hother => hbefore other (List.mem_cons_of_mem _ hother)
  · rintro (⟨hfirst, rfl⟩ | ⟨hfirst, before, after, rfl, hitem, hbefore⟩)
    · exact ⟨[], items, rfl, hfirst, nofun⟩
    · exact ⟨first :: before, after, rfl, hitem, List.forall_mem_cons.mpr ⟨hfirst, hbefore⟩⟩

/-- Of two lists in a row the second counts only if the first has no such item. -/
theorem firstWith_append_iff {more : List α} : FirstWith p (items ++ more) item ↔
    FirstWith p items item ∨ (∀ other ∈ items, ¬ p other) ∧ FirstWith p more item := by
  induction items with
  | nil => simp [not_firstWith_nil]
  | cons first items ih =>
      rw [List.cons_append, firstWith_cons_iff, firstWith_cons_iff, ih, List.forall_mem_cons]
      by_cases hfirst : p first <;> simp [hfirst]

/-- There is a first item with a property as soon as there is any. -/
theorem exists_firstWith_iff : (∃ item, FirstWith p items item) ↔ ∃ item ∈ items, p item := by
  constructor
  · rintro ⟨item, hitem⟩
    exact ⟨item, hitem.mem, hitem.holds⟩
  · rintro ⟨item, hmem, hitem⟩
    induction items with
    | nil => cases hmem
    | cons first items ih =>
        by_cases hfirst : p first
        · exact ⟨first, firstWith_cons_iff.mpr (Or.inl ⟨hfirst, rfl⟩)⟩
        · have hrest : item ∈ items :=
            (List.mem_cons.mp hmem).resolve_left fun heq => hfirst (heq ▸ hitem)
          obtain ⟨found, hfound⟩ := ih hrest
          exact ⟨found, firstWith_cons_iff.mpr (Or.inr ⟨hfirst, hfound⟩)⟩

theorem LastWith.mem (h : LastWith p items item) : item ∈ items := by
  obtain ⟨before, after, rfl, -⟩ := h
  simp

theorem LastWith.holds (h : LastWith p items item) : p item := by
  obtain ⟨-, -, -, hitem, -⟩ := h
  exact hitem

/-- The last of the items is the first from the other end. -/
theorem firstWith_reverse_iff : FirstWith p items.reverse item ↔ LastWith p items item := by
  constructor
  · rintro ⟨before, after, hsplit, hitem, hbefore⟩
    refine ⟨after.reverse, before.reverse, ?_, hitem, fun other hother => ?_⟩
    · simpa using congrArg List.reverse hsplit
    · exact hbefore other (List.mem_reverse.mp hother)
  · rintro ⟨before, after, rfl, hitem, hafter⟩
    refine ⟨after.reverse, before.reverse, by simp, hitem, fun other hother => ?_⟩
    exact hafter other (List.mem_reverse.mp hother)

/-- Where the items go in an order of their own the first with a property is the one that no other
such item comes before. -/
theorem firstWith_iff_of_pairwise {r : α → α → Prop} (hr : ∀ {a b}, r a b → ¬ r b a)
    (h : items.Pairwise r) :
    FirstWith p items item ↔ item ∈ items ∧ p item ∧ ∀ other ∈ items, p other → ¬ r other item := by
  constructor
  · rintro ⟨before, after, rfl, hitem, hbefore⟩
    refine ⟨by simp, hitem, fun other hother hp hless => ?_⟩
    rcases List.mem_append.mp hother with hother | hother
    · exact hbefore other hother hp
    · rcases List.mem_cons.mp hother with rfl | hother
      · exact hr hless hless
      · have hbehind := List.pairwise_cons.mp (List.pairwise_append.mp h).2.1
        exact hr (hbehind.1 other hother) hless
  · rintro ⟨hmem, hitem, hnone⟩
    obtain ⟨before, after, rfl⟩ := List.append_of_mem hmem
    refine ⟨before, after, rfl, hitem, fun other hother hp => ?_⟩
    refine hnone other (List.mem_append_left _ hother) hp ?_
    exact (List.pairwise_append.mp h).2.2 other hother item List.mem_cons_self

/-- A search stops at the first item that passes the test. -/
theorem find?_eq_some_iff_firstWith {test : α → Bool} (h : ∀ item, test item = true ↔ p item) :
    items.find? test = some item ↔ FirstWith p items item := by
  rw [List.find?_eq_some_iff_append, FirstWith, h]
  constructor
  · rintro ⟨hitem, before, after, hsplit, hbefore⟩
    refine ⟨before, after, hsplit, hitem, fun other hother hp => ?_⟩
    have hnot := hbefore other hother
    rw [(h other).mpr hp] at hnot
    cases hnot
  · rintro ⟨before, after, hsplit, hitem, hbefore⟩
    refine ⟨hitem, before, after, hsplit, fun other hother => ?_⟩
    rw [Bool.not_eq_true', Bool.eq_false_iff]
    exact fun htest => hbefore other hother ((h other).mp htest)

/-- The first of some images with a property is that of the first item whose image has it. -/
theorem firstWith_filterMap_iff {β : Type} {q : β → Prop} {f : α → Option β} {b : β} :
    FirstWith q (items.filterMap f) b ↔
      ∃ item, FirstWith (fun i => ∃ c, f i = some c ∧ q c) items item ∧ f item = some b := by
  classical
  have hpass : ∀ i, (f i).any (fun c => q c) = true ↔ ∃ c, f i = some c ∧ q c := by
    intro i
    cases f i <;> simp
  rw [← find?_eq_some_iff_firstWith fun _ => decide_eq_true_iff, List.find?_filterMap,
    Option.bind_eq_some_iff]
  exact exists_congr fun item => and_congr_left' (find?_eq_some_iff_firstWith hpass)

/-- A search for an answer stops at the first item that has one. -/
theorem findSome?_eq_some_iff_firstWith {β : Type} {f : α → Option β} {b : β} :
    items.findSome? f = some b ↔
      ∃ item, FirstWith (fun i => (f i).isSome = true) items item ∧ f item = some b := by
  rw [List.findSome?_eq_some_iff]
  constructor
  · rintro ⟨before, item, after, hsplit, hitem, hbefore⟩
    refine ⟨item, ⟨before, after, hsplit, Option.isSome_iff_exists.mpr ⟨b, hitem⟩, ?_⟩, hitem⟩
    intro other hother
    show ¬ (f other).isSome = true
    rw [hbefore other hother]
    exact Bool.false_ne_true
  · rintro ⟨item, ⟨before, after, hsplit, -, hbefore⟩, hitem⟩
    refine ⟨before, item, after, hsplit, hitem, fun other hother => ?_⟩
    rw [← Option.not_isSome_iff_eq_none]
    exact hbefore other hother

end

/-! ## Look-ups by name -/

namespace Table

variable {α : Type}

/-- A search for a name among the entries is a search for an item that has it. -/
theorem find?_flatMap_names (items : List α) (names : α → List String) (id : α → String)
    (key : String) :
    ((items.flatMap fun item => (names item).map fun name => (name, id item)).find?
        fun entry => entry.1 == key).map (·.2)
      = (items.find? fun item => (names item).contains key).map id := by
  induction items with
  | nil => rfl
  | cons item rest ih =>
      rw [List.flatMap_cons, List.find?_append, Option.map_or, ih, List.find?_map, Option.map_map]
      -- the entries of one item stand together, so the item as a whole answers or is passed over
      by_cases h : key ∈ names item
      · rw [List.find?_cons_of_pos (by simpa using h)]
        have hsome : (List.find? ((fun entry : String × String => entry.1 == key) ∘
            fun name => (name, id item)) (names item)).isSome = true :=
          List.find?_isSome.mpr ⟨key, h, beq_self_eq_true key⟩
        obtain ⟨name, hname⟩ := Option.isSome_iff_exists.mp hsome
        rw [hname]
        rfl
      · rw [List.find?_cons_of_neg (by simpa using h), List.find?_eq_none.mpr]
        · rfl
        · intro name hname heq
          exact h (eq_of_beq heq ▸ hname)

/-- **Where the first entry counts** a name leads to the first item that has it. -/
theorem getElem?_firstWins_names (items : List α) (names : α → List String) (id : α → String)
    (key : String) :
    (firstWins (items.flatMap fun item => (names item).map fun name => (name, id item)))[key]?
      = (items.find? fun item => (names item).contains key).map id := by
  rw [getElem?_firstWins, find?_flatMap_names]

/-- **Where the last entry counts** a name leads to the last item that has it. -/
theorem getElem?_lastWins_names (items : List α) (names : α → List String) (id : α → String)
    (key : String) :
    (lastWins (items.flatMap fun item => (names item).map fun name => (name, id item)))[key]?
      = (items.reverse.find? fun item => (names item).contains key).map id := by
  have hreverse : (items.flatMap fun item => (names item).map fun name => (name, id item)).reverse
      = items.reverse.flatMap fun item =>
          ((names item).reverse).map fun name => (name, id item) := by
    rw [List.reverse_flatMap]
    simp only [Function.comp_def, List.map_reverse]
  rw [getElem?_lastWins, hreverse, find?_flatMap_names]
  simp only [List.contains_reverse]

end Table

end Cartograph
