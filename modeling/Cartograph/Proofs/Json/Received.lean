import Cartograph.Proofs.Json.Text

/-!
# What a reader receives

A value without decimals that is not nested too deep reads the same from either layout, with or
without blanks behind it: a reader receives the value itself, but for whole numbers that no 64-bit
word holds, which come as their texts (`Json.received`). Main statements: `Json.read?_compact_append`,
`Json.read?_pretty_append`, and that the compact text is one line (`Json.keepsLine_of_mem_compact`).
-/

namespace Cartograph.Json

open Cartograph.Text

/-! ## Values without decimals -/

/-- The value is no decimal. -/
def NotDecimal : Json → Prop
  | .decimal _ => False
  | _ => True

/-- Every number in the value is whole. -/
def Whole (value : Json) : Prop :=
  value.All NotDecimal

theorem whole_arr_iff {items : List Json} : (arr items).Whole ↔ ∀ item ∈ items, item.Whole := by
  simp only [Whole, all_arr_iff, NotDecimal, true_and]

theorem whole_obj_iff {members : List (String × Json)} :
    (obj members).Whole ↔ ∀ m ∈ members, m.2.Whole := by
  simp only [Whole, all_obj_iff, NotDecimal, true_and]

/-! ## Values that can be read -/

/-- Every number in the value is whole, and no more arrays and objects than there is room for stand
in one another. -/
def Readable (value : Json) (room : Nat) : Prop :=
  value.Whole ∧ value.nesting ≤ room

theorem readable_arr_iff {items : List Json} {room : Nat} :
    (arr items).Readable (room + 1) ↔ ∀ item ∈ items, item.Readable room := by
  simp only [Readable, whole_arr_iff, nesting_arr_le_iff, forall_and]

theorem readable_obj_iff {members : List (String × Json)} {room : Nat} :
    (obj members).Readable (room + 1) ↔ ∀ m ∈ members, m.2.Readable room := by
  simp only [Readable, whole_obj_iff, nesting_obj_le_iff, forall_and]

theorem readable_null (room : Nat) : null.Readable room := ⟨trivial, Nat.zero_le room⟩

theorem readable_bool (b : Bool) (room : Nat) : (bool b).Readable room :=
  ⟨trivial, Nat.zero_le room⟩

theorem readable_int (n : Int) (room : Nat) : (int n).Readable room := ⟨trivial, Nat.zero_le room⟩

theorem readable_str (s : String) (room : Nat) : (str s).Readable room :=
  ⟨trivial, Nat.zero_le room⟩

theorem Readable.mono {value : Json} {room more : Nat} (h : value.Readable room)
    (hmore : room ≤ more) : value.Readable more :=
  ⟨h.1, h.2.trans hmore⟩

/-! ## Received values -/

mutual

/-- The value as a reader receives it: a whole number that does not fit is its text. -/
def received : Json → Json
  | .int n => if Fits n then .int n else .decimal (String.ofList (intOnto n []))
  | .arr items => .arr (receivedItems items)
  | .obj members => .obj (receivedMembers members)
  | v => v

/-- What is received of every item. -/
def receivedItems : List Json → List Json
  | [] => []
  | v :: rest => received v :: receivedItems rest

/-- What is received of the value of every member. -/
def receivedMembers : List (String × Json) → List (String × Json)
  | [] => []
  | (k, v) :: rest => (k, received v) :: receivedMembers rest

end

theorem receivedItems_eq_map (items : List Json) : receivedItems items = items.map received := by
  induction items with
  | nil => rfl
  | cons v rest ih => rw [receivedItems, ih, List.map_cons]

theorem receivedMembers_eq_map (members : List (String × Json)) :
    receivedMembers members = members.map fun m => (m.1, m.2.received) := by
  induction members with
  | nil => rfl
  | cons m rest ih => rw [receivedMembers, ih, List.map_cons]

/-- What is received of a value without decimals reads as it is written. -/
theorem legible_received {value : Json} (h : value.Whole) : value.received.Legible := by
  induction value using induction with
  | null => trivial
  | bool b => trivial
  | decimal _ => exact False.elim h
  | str s => trivial
  | int n =>
      rw [received]
      split
      · rename_i hfits
        exact hfits
      · rename_i hfits
        exact ⟨n, hfits, String.toList_ofList⟩
  | arr items ih =>
      rw [whole_arr_iff] at h
      rw [received, receivedItems_eq_map, legible_arr_iff, List.forall_mem_map]
      exact fun item hitem => ih item hitem (h item hitem)
  | obj members ih =>
      rw [whole_obj_iff] at h
      rw [received, receivedMembers_eq_map, legible_obj_iff, List.forall_mem_map]
      exact fun m hm => ih m hm (h m hm)

mutual

/-- What is received is nested like the value. -/
theorem nesting_received : (value : Json) → value.received.nesting = value.nesting
  | .null | .bool _ | .decimal _ | .str _ => rfl
  | .int n => by
      rw [received]
      split <;> rfl
  | .arr items => congrArg (· + 1) (nestingItems_received items)
  | .obj members => congrArg (· + 1) (nestingMembers_received members)

theorem nestingItems_received : (items : List Json) →
    nestingItems (receivedItems items) = nestingItems items
  | [] => rfl
  | v :: rest => by
      rw [receivedItems, nestingItems, nestingItems, nesting_received v,
        nestingItems_received rest]

theorem nestingMembers_received : (members : List (String × Json)) →
    nestingMembers (receivedMembers members) = nestingMembers members
  | [] => rfl
  | (_, v) :: rest => by
      rw [receivedMembers, nestingMembers, nestingMembers, nesting_received v,
        nestingMembers_received rest]

end

/-- A value whose numbers fit is received as it is. -/
theorem received_of_integral {value : Json} (h : value.Integral) : value.received = value := by
  induction value using induction with
  | null | bool b | str s => rfl
  | decimal _ => exact False.elim h
  | int n => exact if_pos h
  | arr items ih =>
      rw [integral_arr_iff] at h
      rw [received, receivedItems_eq_map]
      exact congrArg arr ((List.map_congr_left fun item hitem => ih item hitem (h item hitem)).trans
        (List.map_id _))
  | obj members ih =>
      rw [integral_obj_iff] at h
      rw [received, receivedMembers_eq_map]
      refine congrArg obj (Eq.trans (List.map_congr_left fun m hm => ?_) (List.map_id _))
      exact Prod.ext rfl (ih m hm (h m hm))

mutual

/-- A value and what is received of it have the same text. -/
theorem layOnto_received (layout : Layout) (depth : Nat) : (value : Json) → (tail : List Char) →
    layOnto layout depth value.received tail = layOnto layout depth value tail
  | .null, _ | .bool true, _ | .bool false, _ | .decimal _, _ | .str _, _ | .arr [], _
  | .obj [], _ => rfl
  | .int n, tail => by
      rw [received]
      split
      · rfl
      · rw [layOnto, layOnto, append_of_text String.toList_ofList]
  | .arr (v :: rest), tail => by
      rw [received, receivedItems, layOnto, layOnto, layOnto_received layout (depth + 1) v,
        layItems_received layout depth rest]
  | .obj ((k, v) :: rest), tail => by
      rw [received, receivedMembers, layOnto, layOnto, layOnto_received layout (depth + 1) v,
        layMembers_received layout depth rest]

theorem layItems_received (layout : Layout) (depth : Nat) : (items : List Json) →
    (tail : List Char) →
      layItems layout depth (receivedItems items) tail = layItems layout depth items tail
  | [], _ => rfl
  | v :: rest, tail => by
      rw [receivedItems, layItems, layItems, layOnto_received layout (depth + 1) v,
        layItems_received layout depth rest]

theorem layMembers_received (layout : Layout) (depth : Nat) : (members : List (String × Json)) →
    (tail : List Char) →
      layMembers layout depth (receivedMembers members) tail = layMembers layout depth members tail
  | [], _ => rfl
  | (k, v) :: rest, tail => by
      rw [receivedMembers, layMembers, layMembers, layOnto_received layout (depth + 1) v,
        layMembers_received layout depth rest]

end

/-! ## What stands behind a value -/

theorem escapeOnto_append (cs a b : List Char) :
    escapeOnto cs (a ++ b) = escapeOnto cs a ++ b := by
  induction cs with
  | nil => rfl
  | cons c rest ih =>
      have hstep (tail : List Char) : escapeOnto (c :: rest) tail
          = escape c ++ escapeOnto rest tail := rfl
      rw [hstep, hstep, ih, List.append_assoc]

theorem quoteOnto_append (s : String) (a b : List Char) :
    quoteOnto s (a ++ b) = quoteOnto s a ++ b := by
  rw [quoteOnto, quoteOnto, ← List.cons_append, escapeOnto_append, List.cons_append]

mutual

/-- What stands behind a value is not changed by it. -/
theorem layOnto_append (layout : Layout) (depth : Nat) : (value : Json) → (a b : List Char) →
    layOnto layout depth value (a ++ b) = layOnto layout depth value a ++ b
  | .null, _, _ | .bool true, _, _ | .bool false, _, _ | .arr [], _, _ | .obj [], _, _ => rfl
  | .int n, a, b => intOnto_append n a b
  | .decimal text, a, b => (List.append_assoc text.toList a b).symm
  | .str s, a, b => quoteOnto_append s a b
  | .arr (v :: rest), a, b => by
      rw [layOnto, layOnto, layItems_append layout depth rest, layOnto_append layout (depth + 1) v,
        List.cons_append, List.append_assoc]
  | .obj ((k, v) :: rest), a, b => by
      rw [layOnto, layOnto, layMembers_append layout depth rest,
        layOnto_append layout (depth + 1) v, List.cons_append, List.append_assoc,
        ← quoteOnto_append, List.cons_append, List.append_assoc]

theorem layItems_append (layout : Layout) (depth : Nat) : (items : List Json) →
    (a b : List Char) →
      layItems layout depth items (a ++ b) = layItems layout depth items a ++ b
  | [], a, b => by
      rw [layItems, layItems, List.append_assoc, List.cons_append]
  | v :: rest, a, b => by
      rw [layItems, layItems, layItems_append layout depth rest,
        layOnto_append layout (depth + 1) v, List.cons_append, List.append_assoc]

theorem layMembers_append (layout : Layout) (depth : Nat) : (members : List (String × Json)) →
    (a b : List Char) →
      layMembers layout depth members (a ++ b) = layMembers layout depth members a ++ b
  | [], a, b => by
      rw [layMembers, layMembers, List.append_assoc, List.cons_append]
  | (k, v) :: rest, a, b => by
      rw [layMembers, layMembers, layMembers_append layout depth rest,
        layOnto_append layout (depth + 1) v, List.cons_append, List.append_assoc,
        ← quoteOnto_append, List.cons_append, List.append_assoc]

end

/-- A value that can be read is read from a layout with blanks behind it. -/
theorem read?_layOnto_append (layout : Layout) (depth : Nat) {value : Json}
    (h : value.Readable nestingLimit) {gap : String} (hgap : ∀ c ∈ gap.toList, isGap c = true) :
    read? (String.ofList (layOnto layout depth value []) ++ gap) = some value.received := by
  have htext : String.ofList (layOnto layout depth value []) ++ gap
      = String.ofList (layOnto layout depth value.received gap.toList) := by
    rw [← String.toList_inj, String.toList_append, String.toList_ofList, String.toList_ofList,
      ← layOnto_append, List.nil_append, layOnto_received]
  rw [htext]
  exact read?_layOnto layout depth (legible_received h.1) ((nesting_received value).trans_le h.2)
    hgap

/-- **The compact text is read** with blanks behind it. -/
theorem read?_compact_append {value : Json} (h : value.Readable nestingLimit) {gap : String}
    (hgap : ∀ c ∈ gap.toList, isGap c = true) :
    read? (value.compact ++ gap) = some value.received := by
  rw [compact, compactOnto_eq 0]
  exact read?_layOnto_append _ _ h hgap

/-- **The pretty text is read** with blanks behind it. -/
theorem read?_pretty_append {value : Json} (h : value.Readable nestingLimit) {gap : String}
    (hgap : ∀ c ∈ gap.toList, isGap c = true) :
    read? (value.pretty ++ gap) = some value.received := by
  rw [pretty, prettyOnto_eq]
  exact read?_layOnto_append _ _ h hgap

/-! ## One line -/

/-- The character is no control character, so no line ends at it. -/
def keepsLine (c : Char) : Bool :=
  0x20 ≤ c.toNat

/-- No control character is in front of what stands behind. -/
def Unbroken (cs tail : List Char) : Prop :=
  ∀ c ∈ cs, c ∈ tail ∨ keepsLine c = true

theorem Unbroken.refl (cs : List Char) : Unbroken cs cs :=
  fun _ h => .inl h

theorem Unbroken.trans {cs ds es : List Char} (h : Unbroken cs ds) (h' : Unbroken ds es) :
    Unbroken cs es := by
  intro c hc
  rcases h c hc with hc | hc
  · exact h' c hc
  · exact .inr hc

theorem Unbroken.cons {cs tail : List Char} (h : Unbroken cs tail) {c : Char}
    (hc : keepsLine c = true) : Unbroken (c :: cs) tail := by
  intro d hd
  rcases List.mem_cons.mp hd with rfl | hd
  · exact .inr hc
  · exact h d hd

theorem unbroken_append {word : List Char} (h : word.all keepsLine = true) (tail : List Char) :
    Unbroken (word ++ tail) tail := by
  intro c hc
  rcases List.mem_append.mp hc with hc | hc
  · exact .inr (List.all_eq_true.mp h c hc)
  · exact .inl hc

theorem keepsLine_hexChar {n : Nat} (h : n < 16) : keepsLine (hexChar n) = true := by
  have key : ∀ k : Fin 16, keepsLine (hexChar k.val) = true := by decide
  exact key ⟨n, h⟩

theorem unbroken_escape (c : Char) (tail : List Char) : Unbroken (escape c ++ tail) tail := by
  refine unbroken_append ?_ tail
  unfold escape
  -- a control character is written by its code, and one that is no control character by itself
  split_ifs with _ _ _ _ _ _ _ hcode
  all_goals try rfl
  · have hhigh := keepsLine_hexChar (show c.toNat / 16 < 16 by omega)
    have hlow := keepsLine_hexChar (show c.toNat % 16 < 16 by omega)
    simp only [List.all_cons, hhigh, hlow]
    rfl
  · simpa [keepsLine] using hcode

theorem unbroken_quoteOnto (s : String) (tail : List Char) : Unbroken (quoteOnto s tail) tail := by
  have key : ∀ cs : List Char, Unbroken (escapeOnto cs ('"' :: tail)) tail := by
    intro cs
    induction cs with
    | nil => exact (Unbroken.refl tail).cons (by decide)
    | cons c rest ih => exact (unbroken_escape c _).trans ih
  exact (key s.toList).cons (by decide)

theorem keepsLine_of_isDigit {c : Char} (h : Decimal.isDigit c = true) : keepsLine c = true := by
  simp only [Decimal.isDigit, Bool.and_eq_true, decide_eq_true_eq] at h
  have hzero : 48 ≤ c.toNat := h.1
  exact decide_eq_true (by omega)

theorem unbroken_digitsOnto (n : Nat) (tail : List Char) :
    Unbroken (Decimal.digitsOnto n tail) tail := by
  rw [Decimal.digitsOnto_eq_append]
  refine unbroken_append (List.all_eq_true.mpr fun c hc => ?_) tail
  exact keepsLine_of_isDigit (Decimal.isDigit_of_mem_digits n c hc)

theorem unbroken_intOnto (n : Int) (tail : List Char) : Unbroken (intOnto n tail) tail := by
  cases n with
  | ofNat m => exact unbroken_digitsOnto m tail
  | negSucc m => exact (unbroken_digitsOnto (m + 1) tail).cons (by decide)

mutual

/-- The compact text of a value without decimals has no control character. -/
theorem unbroken_compactOnto : (value : Json) → (tail : List Char) → value.Whole →
    Unbroken (compactOnto value tail) tail
  | .null, tail, _ => unbroken_append (by decide) tail
  | .bool true, tail, _ => unbroken_append (by decide) tail
  | .bool false, tail, _ => unbroken_append (by decide) tail
  | .int n, tail, _ => unbroken_intOnto n tail
  | .decimal _, _, h => False.elim h
  | .str s, tail, _ => unbroken_quoteOnto s tail
  | .arr [], tail, _ => (((Unbroken.refl tail).cons (by decide)).cons (by decide))
  | .obj [], tail, _ => (((Unbroken.refl tail).cons (by decide)).cons (by decide))
  | .arr (v :: rest), tail, h => by
      rw [whole_arr_iff, List.forall_mem_cons] at h
      exact ((unbroken_compactOnto v _ h.1).trans (unbroken_compactItems rest tail h.2)).cons
        (by decide)
  | .obj ((k, v) :: rest), tail, h => by
      rw [whole_obj_iff, List.forall_mem_cons] at h
      exact ((unbroken_quoteOnto k _).trans (((unbroken_compactOnto v _ h.1).trans
        (unbroken_compactMembers rest tail h.2)).cons (by decide))).cons (by decide)

theorem unbroken_compactItems : (items : List Json) → (tail : List Char) →
    (∀ item ∈ items, item.Whole) → Unbroken (compactItems items tail) tail
  | [], tail, _ => (Unbroken.refl tail).cons (by decide)
  | v :: rest, tail, h => by
      rw [List.forall_mem_cons] at h
      exact ((unbroken_compactOnto v _ h.1).trans (unbroken_compactItems rest tail h.2)).cons
        (by decide)

theorem unbroken_compactMembers : (members : List (String × Json)) → (tail : List Char) →
    (∀ m ∈ members, m.2.Whole) → Unbroken (compactMembers members tail) tail
  | [], tail, _ => (Unbroken.refl tail).cons (by decide)
  | (k, v) :: rest, tail, h => by
      rw [List.forall_mem_cons] at h
      exact ((unbroken_quoteOnto k _).trans (((unbroken_compactOnto v _ h.1).trans
        (unbroken_compactMembers rest tail h.2)).cons (by decide))).cons (by decide)

end

/-- **The compact text is one line**: it has no control character. -/
theorem keepsLine_of_mem_compact {value : Json} (h : value.Whole) {c : Char}
    (hc : c ∈ value.compact.toList) : keepsLine c = true := by
  rw [compact, String.toList_ofList] at hc
  rcases unbroken_compactOnto value [] h c hc with hc | hc
  · cases hc
  · exact hc

end Cartograph.Json
