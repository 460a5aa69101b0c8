import Cartograph.Proofs.Json.Ordered
import Cartograph.Proofs.Json.Scalars

/-!
# Values, written and read

The two layouts differ in their blanks only (`Json.Layout`), and blanks are passed over when a text
is read. A value whose numbers are whole and fit a 64-bit word reads back from either layout
(`Json.read?_compact`, `Json.read?_pretty`).
-/

namespace Cartograph.Json

open Cartograph.Text

/-! ## Layouts -/

/-- What stands between the parts of a value. -/
structure Layout where
  /-- In front of an item or a member at a depth, and of the bracket that closes them. -/
  before : Nat → List Char
  behindColon : List Char
  isGap_before : ∀ depth, ∀ c ∈ before depth, isGap c = true
  isGap_behindColon : ∀ c ∈ behindColon, isGap c = true

/-- The layout without blanks. -/
def Layout.compact : Layout where
  before _ := []
  behindColon := []
  isGap_before _ _ h := absurd h List.not_mem_nil
  isGap_behindColon _ h := absurd h List.not_mem_nil

/-- The layout with a line for every part. -/
def Layout.pretty : Layout where
  before depth := '\n' :: List.replicate (2 * depth) ' '
  behindColon := [' ']
  isGap_before depth c h := by
    rcases List.mem_cons.mp h with rfl | h
    · rfl
    · rw [List.eq_of_mem_replicate h]
      rfl
  isGap_behindColon c h := by
    rw [List.mem_singleton.mp h]
    rfl

mutual

/-- The value in a layout, its first line at `depth`, followed by `tail`. -/
def layOnto (layout : Layout) (depth : Nat) : Json → List Char → List Char
  | .null, tail => "null".toList ++ tail
  | .bool true, tail => "true".toList ++ tail
  | .bool false, tail => "false".toList ++ tail
  | .int n, tail => intOnto n tail
  | .decimal text, tail => text.toList ++ tail
  | .str s, tail => quoteOnto s tail
  | .arr [], tail => '[' :: ']' :: tail
  | .arr (v :: rest), tail =>
    '[' :: (layout.before (depth + 1) ++
      layOnto layout (depth + 1) v (layItems layout depth rest tail))
  | .obj [], tail => '\x7b' :: '\x7d' :: tail
  | .obj ((k, v) :: rest), tail =>
    '\x7b' :: (layout.before (depth + 1) ++ quoteOnto k (':' :: (layout.behindColon ++
      layOnto layout (depth + 1) v (layMembers layout depth rest tail))))

/-- The items after the first, and the closing bracket. -/
def layItems (layout : Layout) (depth : Nat) : List Json → List Char → List Char
  | [], tail => layout.before depth ++ ']' :: tail
  | v :: rest, tail =>
    ',' :: (layout.before (depth + 1) ++
      layOnto layout (depth + 1) v (layItems layout depth rest tail))

/-- The members after the first, and the closing brace. -/
def layMembers (layout : Layout) (depth : Nat) : List (String × Json) → List Char → List Char
  | [], tail => layout.before depth ++ '\x7d' :: tail
  | (k, v) :: rest, tail =>
    ',' :: (layout.before (depth + 1) ++ quoteOnto k (':' :: (layout.behindColon ++
      layOnto layout (depth + 1) v (layMembers layout depth rest tail))))

end

mutual

/-- The compact text is the value in the layout without blanks. -/
theorem compactOnto_eq (depth : Nat) : (value : Json) → (tail : List Char) →
    compactOnto value tail = layOnto .compact depth value tail
  | .null, _ | .bool true, _ | .bool false, _ | .int _, _ | .decimal _, _ | .str _, _ | .arr [], _
  | .obj [], _ => rfl
  | .arr (v :: rest), tail => by
      rw [compactOnto, layOnto, compactOnto_eq (depth + 1) v, compactItems_eq depth rest]
      rfl
  | .obj ((k, v) :: rest), tail => by
      rw [compactOnto, layOnto, compactOnto_eq (depth + 1) v, compactMembers_eq depth rest]
      rfl

theorem compactItems_eq (depth : Nat) : (items : List Json) → (tail : List Char) →
    compactItems items tail = layItems .compact depth items tail
  | [], _ => rfl
  | v :: rest, tail => by
      rw [compactItems, layItems, compactOnto_eq (depth + 1) v, compactItems_eq depth rest]
      rfl

theorem compactMembers_eq (depth : Nat) : (members : List (String × Json)) → (tail : List Char) →
    compactMembers members tail = layMembers .compact depth members tail
  | [], _ => rfl
  | (k, v) :: rest, tail => by
      rw [compactMembers, layMembers, compactOnto_eq (depth + 1) v, compactMembers_eq depth rest]
      rfl

end

mutual

/-- The pretty text is the value in the layout with lines. -/
theorem prettyOnto_eq : (depth : Nat) → (value : Json) → (tail : List Char) →
    prettyOnto depth value tail = layOnto .pretty depth value tail
  | _, .null, _ | _, .bool true, _ | _, .bool false, _ | _, .int _, _ | _, .decimal _, _
  | _, .str _, _ | _, .arr [], _ | _, .obj [], _ => rfl
  | depth, .arr (v :: rest), tail => by
      rw [prettyOnto, layOnto, prettyOnto_eq (depth + 1) v, prettyItems_eq depth rest]
      rfl
  | depth, .obj ((k, v) :: rest), tail => by
      rw [prettyOnto, layOnto, prettyOnto_eq (depth + 1) v, prettyMembers_eq depth rest]
      rfl

theorem prettyItems_eq : (depth : Nat) → (items : List Json) → (tail : List Char) →
    prettyItems depth items tail = layItems .pretty depth items tail
  | _, [], _ => rfl
  | depth, v :: rest, tail => by
      rw [prettyItems, layItems, prettyOnto_eq (depth + 1) v, prettyItems_eq depth rest]
      rfl

theorem prettyMembers_eq : (depth : Nat) → (members : List (String × Json)) →
    (tail : List Char) → prettyMembers depth members tail = layMembers .pretty depth members tail
  | _, [], _ => rfl
  | depth, (k, v) :: rest, tail => by
      rw [prettyMembers, layMembers, prettyOnto_eq (depth + 1) v, prettyMembers_eq depth rest]
      rfl

end

/-! ## Blanks -/

section

variable {str : StringReader} {fuel room : Nat} {gap cs : List Char}

theorem skipGap_append (h : ∀ c ∈ gap, isGap c = true) : skipGap (gap ++ cs) = skipGap cs :=
  List.dropWhile_append_of_pos h

theorem skipGap_cons {c : Char} (h : isGap c = false) : skipGap (c :: cs) = c :: cs :=
  List.dropWhile_cons_of_neg (by simp [h])

theorem readValue_append (h : ∀ c ∈ gap, isGap c = true) :
    readValue str fuel room (gap ++ cs) = readValue str fuel room cs := by
  cases fuel with
  | zero => rw [readValue, readValue]
  | succ fuel => rw [readValue, readValue, skipGap_append h]

theorem readItems_append (h : ∀ c ∈ gap, isGap c = true) :
    readItems str fuel room (gap ++ cs) = readItems str fuel room cs := by
  cases fuel with
  | zero => rw [readItems, readItems]
  | succ fuel => rw [readItems, readItems, readValue_append h]

theorem readMembers_append (h : ∀ c ∈ gap, isGap c = true) :
    readMembers str fuel room (gap ++ cs) = readMembers str fuel room cs := by
  cases fuel with
  | zero => rw [readMembers, readMembers]
  | succ fuel => rw [readMembers, readMembers, skipGap_append h]

end

/-! ## Numbers that are kept -/

/-- A number is whole and fits a 64-bit word. -/
def NumberFits : Json → Prop
  | .int n => Fits n
  | .decimal _ => False
  | _ => True

instance : DecidablePred NumberFits
  | .int n => inferInstanceAs (Decidable (Fits n))
  | .decimal _ => isFalse id
  | .null | .bool _ | .str _ | .arr _ | .obj _ => isTrue trivial

/-- Every number in the value is whole and fits a 64-bit word. -/
def Integral (value : Json) : Prop :=
  value.All NumberFits

instance (value : Json) : Decidable value.Integral :=
  inferInstanceAs (Decidable (value.All NumberFits))

theorem integral_arr_iff {items : List Json} :
    (arr items).Integral ↔ ∀ item ∈ items, item.Integral := by
  simp only [Integral, all_arr_iff, NumberFits, true_and]

theorem integral_obj_iff {members : List (String × Json)} :
    (obj members).Integral ↔ ∀ m ∈ members, m.2.Integral := by
  simp only [Integral, all_obj_iff, NumberFits, true_and]

/-! ## Numbers that read as they are written -/

/-- A number is whole and fits a 64-bit word, or it is the text of a whole number that does not. -/
def NumberReads : Json → Prop
  | .int n => Fits n
  | .decimal text => ∃ n : Int, ¬ Fits n ∧ text.toList = intOnto n []
  | _ => True

/-- Every number in the value reads as it is written. -/
def Legible (value : Json) : Prop :=
  value.All NumberReads

theorem legible_arr_iff {items : List Json} :
    (arr items).Legible ↔ ∀ item ∈ items, item.Legible := by
  simp only [Legible, all_arr_iff, NumberReads, true_and]

theorem legible_obj_iff {members : List (String × Json)} :
    (obj members).Legible ↔ ∀ m ∈ members, m.2.Legible := by
  simp only [Legible, all_obj_iff, NumberReads, true_and]

theorem Integral.legible {value : Json} (h : value.Integral) : value.Legible := by
  induction value using induction with
  | null => trivial
  | bool b => trivial
  | int n => exact h
  | decimal _ => exact False.elim h
  | str s => trivial
  | arr items ih =>
      rw [integral_arr_iff] at h
      exact legible_arr_iff.mpr fun item hitem => ih item hitem (h item hitem)
  | obj members ih =>
      rw [integral_obj_iff] at h
      exact legible_obj_iff.mpr fun m hm => ih m hm (h m hm)

/-! ## How far a reader goes -/

mutual

/-- How many steps it takes to read the value: one for itself and for each part of it. -/
def steps : Json → Nat
  | .arr items => stepsItems items + 1
  | .obj members => stepsMembers members + 1
  | _ => 1

/-- How many steps it takes to read the items. -/
def stepsItems : List Json → Nat
  | [] => 0
  | v :: rest => v.steps + stepsItems rest + 1

/-- How many steps it takes to read the members. -/
def stepsMembers : List (String × Json) → Nat
  | [] => 0
  | (_, v) :: rest => v.steps + stepsMembers rest + 1

end

theorem intOnto_append (n : Int) (a b : List Char) : intOnto n (a ++ b) = intOnto n a ++ b := by
  cases n with
  | ofNat m =>
      rw [intOnto, intOnto, Decimal.digitsOnto_eq_append, Decimal.digitsOnto_eq_append,
        List.append_assoc]
  | negSucc m =>
      rw [intOnto, intOnto, Decimal.digitsOnto_eq_append, Decimal.digitsOnto_eq_append,
        List.cons_append, List.append_assoc]

/-- A whole number that does not fit is written like its text. -/
theorem append_of_text {text : String} {n : Int} (h : text.toList = intOnto n [])
    (tail : List Char) : text.toList ++ tail = intOnto n tail := by
  rw [h, ← intOnto_append, List.nil_append]

theorem length_lt_intOnto (n : Int) (tail : List Char) :
    tail.length < (intOnto n tail).length := by
  cases n with
  | ofNat m =>
      have := List.length_pos_of_ne_nil (digits_ne_nil m)
      rw [intOnto, Decimal.digitsOnto_eq_append, List.length_append]
      omega
  | negSucc m =>
      rw [intOnto, Decimal.digitsOnto_eq_append, List.length_cons, List.length_append]
      omega

theorem length_lt_quoteOnto (s : String) (tail : List Char) :
    tail.length < (quoteOnto s tail).length := by
  have key : ∀ cs : List Char, tail.length < (escapeOnto cs ('"' :: tail)).length := by
    intro cs
    induction cs with
    | nil => exact Nat.lt_succ_self _
    | cons c rest ih =>
        rw [escapeOnto, List.foldr_cons, List.length_append]
        exact Nat.lt_add_left _ ih
  exact Nat.lt_succ_of_lt (key s.toList)

mutual

/-- A text is as long as the steps that it takes to read it. -/
theorem steps_le_length (layout : Layout) (depth : Nat) : (value : Json) → (tail : List Char) →
    value.Legible → value.steps + tail.length ≤ (layOnto layout depth value tail).length
  | .null, tail, _ => by
      simp [steps, layOnto]
      omega
  | .bool true, tail, _ => by
      simp [steps, layOnto]
      omega
  | .bool false, tail, _ => by
      simp [steps, layOnto]
      omega
  | .int n, tail, _ => by
      rw [steps, layOnto]
      · have := length_lt_intOnto n tail
        omega
      all_goals nofun
  | .decimal text, tail, h => by
      obtain ⟨n, -, htext⟩ := h
      have := length_lt_intOnto n tail
      rw [steps, layOnto, append_of_text htext]
      · omega
      all_goals nofun
  | .str s, tail, _ => by
      rw [steps, layOnto]
      · have := length_lt_quoteOnto s tail
        omega
      all_goals nofun
  | .arr [], tail, _ => by
      simp [steps, stepsItems, layOnto]
      omega
  | .obj [], tail, _ => by
      simp [steps, stepsMembers, layOnto]
      omega
  | .arr (v :: rest), tail, h => by
      rw [legible_arr_iff, List.forall_mem_cons] at h
      have hfirst := steps_le_length layout (depth + 1) v (layItems layout depth rest tail) h.1
      have hrest := stepsItems_lt_length layout depth rest tail h.2
      simp only [steps, stepsItems, layOnto, List.length_cons, List.length_append]
      omega
  | .obj ((k, v) :: rest), tail, h => by
      rw [legible_obj_iff, List.forall_mem_cons] at h
      have hfirst := steps_le_length layout (depth + 1) v (layMembers layout depth rest tail) h.1
      have hrest := stepsMembers_lt_length layout depth rest tail h.2
      have hkey := length_lt_quoteOnto k (':' :: (layout.behindColon ++
        layOnto layout (depth + 1) v (layMembers layout depth rest tail)))
      simp only [steps, stepsMembers, layOnto, List.length_cons, List.length_append] at hkey ⊢
      omega

theorem stepsItems_lt_length (layout : Layout) (depth : Nat) : (items : List Json) →
    (tail : List Char) → (∀ item ∈ items, item.Legible) →
      stepsItems items + tail.length < (layItems layout depth items tail).length
  | [], tail, _ => by
      simp only [stepsItems, layItems, List.length_cons, List.length_append]
      omega
  | v :: rest, tail, h => by
      rw [List.forall_mem_cons] at h
      have hfirst := steps_le_length layout (depth + 1) v (layItems layout depth rest tail) h.1
      have hrest := stepsItems_lt_length layout depth rest tail h.2
      simp only [stepsItems, layItems, List.length_cons, List.length_append]
      omega

theorem stepsMembers_lt_length (layout : Layout) (depth : Nat) :
    (members : List (String × Json)) → (tail : List Char) → (∀ m ∈ members, m.2.Legible) →
      stepsMembers members + tail.length < (layMembers layout depth members tail).length
  | [], tail, _ => by
      simp only [stepsMembers, layMembers, List.length_cons, List.length_append]
      omega
  | (k, v) :: rest, tail, h => by
      rw [List.forall_mem_cons] at h
      have hfirst := steps_le_length layout (depth + 1) v (layMembers layout depth rest tail) h.1
      have hrest := stepsMembers_lt_length layout depth rest tail h.2
      have hkey := length_lt_quoteOnto k (':' :: (layout.behindColon ++
        layOnto layout (depth + 1) v (layMembers layout depth rest tail)))
      simp only [stepsMembers, layMembers, List.length_cons, List.length_append] at hkey ⊢
      omega

end

/-! ## Nesting -/

mutual

/-- How many arrays and objects stand in one another. -/
def nesting : Json → Nat
  | .arr items => nestingItems items + 1
  | .obj members => nestingMembers members + 1
  | _ => 0

/-- The deepest nesting of an item. -/
def nestingItems : List Json → Nat
  | [] => 0
  | v :: rest => max (nesting v) (nestingItems rest)

/-- The deepest nesting of the value of a member. -/
def nestingMembers : List (String × Json) → Nat
  | [] => 0
  | (_, v) :: rest => max (nesting v) (nestingMembers rest)

end

theorem nesting_arr_le_iff {items : List Json} {room : Nat} :
    (arr items).nesting ≤ room + 1 ↔ ∀ item ∈ items, item.nesting ≤ room := by
  rw [nesting, Nat.add_le_add_iff_right]
  induction items with
  | nil => simp [nestingItems]
  | cons v rest ih => rw [nestingItems, Nat.max_le, ih, List.forall_mem_cons]

theorem nesting_obj_le_iff {members : List (String × Json)} {room : Nat} :
    (obj members).nesting ≤ room + 1 ↔ ∀ m ∈ members, m.2.nesting ≤ room := by
  rw [nesting, Nat.add_le_add_iff_right]
  induction members with
  | nil => simp [nestingMembers]
  | cons m rest ih => rw [nestingMembers, Nat.max_le, ih, List.forall_mem_cons]

/-! ## Reading back -/

section

variable {fuel room : Nat} {cs : List Char}

theorem ne_of_isDigit {c d : Char} (hc : Decimal.isDigit c = true)
    (hd : Decimal.isDigit d = false) : c ≠ d := by
  rintro rfl
  exact Bool.false_ne_true (hd.symm.trans hc)

theorem isGap_of_isDigit {c : Char} (h : Decimal.isDigit c = true) : isGap c = false := by
  simp only [isGap, Bool.or_eq_false_iff, decide_eq_false_iff_not]
  exact ⟨⟨⟨ne_of_isDigit h rfl, ne_of_isDigit h rfl⟩, ne_of_isDigit h rfl⟩, ne_of_isDigit h rfl⟩

/-- A digit begins a number. -/
theorem readValue_of_isDigit {str : StringReader} {c : Char} (h : Decimal.isDigit c = true) :
    readValue str (fuel + 1) room (c :: cs) = takeUnsigned false (c :: cs) := by
  rw [readValue, skipGap_cons (isGap_of_isDigit h)]
  simp only
  rw [if_neg (ne_of_isDigit h rfl), if_neg (ne_of_isDigit h rfl), if_neg (ne_of_isDigit h rfl),
    if_neg (ne_of_isDigit h rfl), if_pos h]

theorem readValue_minus {str : StringReader} :
    readValue str (fuel + 1) room ('-' :: cs) = takeUnsigned true cs := by
  rw [readValue]
  rfl

/-- A string reads back. -/
theorem readValue_quoteOnto (s : String) (tail : List Char) :
    readValue takeString (fuel + 1) room (quoteOnto s tail) = some (.str s, tail) := by
  rw [quoteOnto, readValue, skipGap_cons (by decide)]
  simp only
  rw [if_neg (by decide), if_neg (by decide), if_pos trivial, takeString_escapeOnto]
  rfl

/-- A number reads back if what follows does not continue it. -/
theorem readValue_intOnto {str : StringReader} {n : Int} {tail : List Char} (h : Fits n)
    (htail : Stops tail) :
    readValue str (fuel + 1) room (intOnto n tail) = some (.int n, tail) := by
  cases n with
  | ofNat m =>
      have hm : m < UInt64.size := Int.ofNat_lt.mp h.2
      obtain ⟨d, ds, hds⟩ := List.exists_cons_of_ne_nil (digits_ne_nil m)
      have hd : Decimal.isDigit d = true :=
        Decimal.isDigit_of_mem_digits m d (hds ▸ List.mem_cons_self)
      rw [intOnto, Decimal.digitsOnto_eq_append, hds, List.cons_append, readValue_of_isDigit hd,
        ← List.cons_append, ← hds, takeUnsigned_digits false m htail, numberOf_digits hm]
      rfl
  | negSucc m =>
      have hm : m + 1 ≤ UInt64.size / 2 := by
        have := h.1
        omega
      rw [intOnto, Decimal.digitsOnto_eq_append, readValue_minus,
        takeUnsigned_digits true (m + 1) htail, numberOf_digits_negative (Nat.succ_pos m) hm]
      rfl

/-- A number that does not fit reads as its text. -/
theorem readValue_intOnto_of_not_fits {str : StringReader} {n : Int} {tail : List Char}
    (h : ¬ Fits n) (htail : Stops tail) : readValue str (fuel + 1) room (intOnto n tail)
      = some (.decimal (String.ofList (intOnto n [])), tail) := by
  cases n with
  | ofNat m =>
      have hm : UInt64.size ≤ m := by
        by_contra hlt
        have hpositive : -((UInt64.size / 2 : Nat) : Int) ≤ (m : Int) := by omega
        exact h ⟨hpositive, Int.ofNat_lt.mpr (Nat.not_le.mp hlt)⟩
      obtain ⟨d, ds, hds⟩ := List.exists_cons_of_ne_nil (digits_ne_nil m)
      have hd : Decimal.isDigit d = true :=
        Decimal.isDigit_of_mem_digits m d (hds ▸ List.mem_cons_self)
      rw [intOnto, intOnto, Decimal.digitsOnto_eq_append, Decimal.digitsOnto_eq_append, hds,
        List.cons_append, readValue_of_isDigit hd, ← List.cons_append, ← hds,
        takeUnsigned_digits false m htail, numberOf_digits_of_le hm, List.append_nil]
  | negSucc m =>
      have hm : UInt64.size / 2 < m + 1 := by
        by_contra hle
        exact h ⟨by omega, by omega⟩
      rw [intOnto, intOnto, Decimal.digitsOnto_eq_append, Decimal.digitsOnto_eq_append,
        readValue_minus, takeUnsigned_digits true (m + 1) htail,
        numberOf_digits_negative_of_lt hm, List.append_nil]

/-- What a reader may meet first: neither a blank nor a closing bracket. -/
def Opens (cs : List Char) : Prop :=
  ∃ c rest, cs = c :: rest ∧ isGap c = false ∧ c ≠ ']'

/-- A whole number opens with a digit or a sign. -/
theorem opens_intOnto (n : Int) (tail : List Char) : Opens (intOnto n tail) := by
  cases n with
  | negSucc _ => exact ⟨_, _, rfl, by decide, by decide⟩
  | ofNat n =>
      obtain ⟨d, ds, hds⟩ := List.exists_cons_of_ne_nil (digits_ne_nil n)
      have hd : Decimal.isDigit d = true :=
        Decimal.isDigit_of_mem_digits n d (hds ▸ List.mem_cons_self)
      refine ⟨d, ds ++ tail, ?_, ?_, ?_⟩
      · rw [intOnto, Decimal.digitsOnto_eq_append, hds, List.cons_append]
      · exact isGap_of_isDigit hd
      · exact ne_of_isDigit hd rfl

theorem opens_layOnto (layout : Layout) (depth : Nat) {value : Json} (h : value.Legible)
    (tail : List Char) : Opens (layOnto layout depth value tail) := by
  match value with
  | .null => exact ⟨_, _, rfl, by decide, by decide⟩
  | .bool true => exact ⟨_, _, rfl, by decide, by decide⟩
  | .bool false => exact ⟨_, _, rfl, by decide, by decide⟩
  | .decimal _ =>
      obtain ⟨n, -, htext⟩ := h
      rw [layOnto, append_of_text htext]
      exact opens_intOnto n tail
  | .str _ => exact ⟨_, _, rfl, by decide, by decide⟩
  | .arr [] => exact ⟨_, _, rfl, by decide, by decide⟩
  | .arr (_ :: _) => exact ⟨_, _, rfl, by decide, by decide⟩
  | .obj [] => exact ⟨_, _, rfl, by decide, by decide⟩
  | .obj (_ :: _) => exact ⟨_, _, rfl, by decide, by decide⟩
  | .int n =>
      rw [layOnto]
      exact opens_intOnto n tail

/-- An array reads back as soon as its items do. -/
theorem readValue_bracket {gap cs tail : List Char} {items : List Json}
    (hgap : ∀ c ∈ gap, isGap c = true) (hopens : Opens cs)
    (h : readItems takeString fuel room cs = some (items, tail)) :
    readValue takeString (fuel + 1) (room + 1) ('[' :: (gap ++ cs)) = some (.arr items, tail) := by
  obtain ⟨c, rest, rfl, hblank, hbracket⟩ := hopens
  rw [readValue, skipGap_cons (by decide)]
  simp only
  rw [if_neg (by decide), if_pos trivial, skipGap_append hgap, skipGap_cons hblank]
  simp only
  rw [if_neg hbracket, h]
  rfl

/-- An object reads back as soon as its members do. -/
theorem readValue_brace {key : String} {gap cs tail : List Char} {members : List (String × Json)}
    (hgap : ∀ c ∈ gap, isGap c = true)
    (h : readMembers takeString fuel room (quoteOnto key cs) = some (members, tail)) :
    readValue takeString (fuel + 1) (room + 1) ('\x7b' :: (gap ++ quoteOnto key cs))
      = some (.obj members, tail) := by
  rw [readValue, skipGap_cons (by decide)]
  simp only
  rw [if_pos trivial, skipGap_append hgap, quoteOnto, skipGap_cons (by decide)]
  simp only
  rw [if_neg (by decide), ← quoteOnto, h]
  rfl

/-- A blank does not continue a number. -/
theorem stops_of_isGap {gap : List Char} (h : ∀ c ∈ gap, isGap c = true) : Stops gap := by
  intro c hc
  have hgap := h c (List.mem_of_mem_head? hc)
  simp only [isGap, Bool.or_eq_true, decide_eq_true_eq] at hgap
  rcases hgap with ((rfl | rfl) | rfl) | rfl <;> decide

/-- What may follow a value: blanks, and then a comma or a closing bracket. -/
theorem stops_append {gap rest : List Char} {c : Char} (hgap : ∀ d ∈ gap, isGap d = true)
    (hc : c = ',' ∨ c = ']' ∨ c = '\x7d') : Stops (gap ++ c :: rest) := by
  have key : ∀ d, isGap d = true ∨ d = ',' ∨ d = ']' ∨ d = '\x7d' →
      Decimal.isDigit d = false ∧ d ≠ '.' ∧ d ≠ 'e' ∧ d ≠ 'E' := by
    intro d hd
    simp only [isGap, Bool.or_eq_true, decide_eq_true_eq] at hd
    rcases hd with (((rfl | rfl) | rfl) | rfl) | rfl | rfl | rfl <;> decide
  intro d hd
  cases gap with
  | nil => exact key d (.inr (Option.some.inj hd ▸ hc))
  | cons g gap => exact key d (.inl (hgap d (Option.some.inj hd ▸ List.mem_cons_self)))

theorem stops_layItems (layout : Layout) (depth : Nat) (items : List Json) (tail : List Char) :
    Stops (layItems layout depth items tail) := by
  cases items with
  | nil => exact stops_append (layout.isGap_before depth) (.inr (.inl rfl))
  | cons v rest => exact @stops_append [] _ _ (by simp) (.inl rfl)

theorem stops_layMembers (layout : Layout) (depth : Nat) (members : List (String × Json))
    (tail : List Char) : Stops (layMembers layout depth members tail) := by
  cases members with
  | nil => exact stops_append (layout.isGap_before depth) (.inr (.inr rfl))
  | cons m rest => exact @stops_append [] _ _ (by simp) (.inl rfl)

/-- A value reads back from a layout at any depth where there is room for it. -/
def ReadsBack (layout : Layout) (value : Json) : Prop :=
  ∀ {fuel room depth : Nat} {tail : List Char}, value.steps ≤ fuel → value.nesting ≤ room →
    Stops tail →
      readValue takeString fuel room (layOnto layout depth value tail) = some (value, tail)

/-- Items read back as soon as each of them does. -/
theorem readItems_layItems {layout : Layout} {depth : Nat} {tail : List Char} {v : Json}
    {rest : List Json} (hv : ReadsBack layout v) (hrest : ∀ item ∈ rest, ReadsBack layout item)
    (hfuel : stepsItems (v :: rest) ≤ fuel) (hroom : ∀ item ∈ v :: rest, item.nesting ≤ room) :
    readItems takeString fuel room (layOnto layout (depth + 1) v (layItems layout depth rest tail))
      = some (v :: rest, tail) := by
  induction rest generalizing v fuel with
  | nil =>
      obtain ⟨fuel, rfl⟩ := Nat.exists_eq_add_one_of_ne_zero (Nat.ne_zero_of_lt hfuel)
      have hvfuel : v.steps ≤ fuel := by
        rw [stepsItems, stepsItems] at hfuel
        omega
      rw [List.forall_mem_singleton] at hroom
      rw [readItems, hv hvfuel hroom (stops_layItems layout depth [] tail), layItems]
      simp only [Option.bind_eq_bind, Option.bind_some]
      rw [skipGap_append (layout.isGap_before depth), skipGap_cons (by decide)]
      rfl
  | cons w rest ih =>
      obtain ⟨fuel, rfl⟩ := Nat.exists_eq_add_one_of_ne_zero (Nat.ne_zero_of_lt hfuel)
      have hvfuel : v.steps ≤ fuel ∧ stepsItems (w :: rest) ≤ fuel := by
        rw [stepsItems] at hfuel
        omega
      rw [List.forall_mem_cons] at hrest hroom
      have hread := ih hrest.1 hrest.2 hvfuel.2 hroom.2
      rw [readItems, hv hvfuel.1 hroom.1 (stops_layItems layout depth (w :: rest) tail), layItems]
      simp only [Option.bind_eq_bind, Option.bind_some]
      rw [skipGap_cons (by decide)]
      simp only
      rw [readItems_append (layout.isGap_before _), hread]
      rfl

/-- Members read back as soon as the value of each of them does. -/
theorem readMembers_layMembers {layout : Layout} {depth : Nat} {tail : List Char} {key : String}
    {v : Json} {rest : List (String × Json)} (hv : ReadsBack layout v)
    (hrest : ∀ m ∈ rest, ReadsBack layout m.2) (hfuel : stepsMembers ((key, v) :: rest) ≤ fuel)
    (hroom : ∀ m ∈ (key, v) :: rest, m.2.nesting ≤ room) :
    readMembers takeString fuel room (quoteOnto key (':' :: (layout.behindColon ++
        layOnto layout (depth + 1) v (layMembers layout depth rest tail))))
      = some ((key, v) :: rest, tail) := by
  induction rest generalizing key v fuel with
  | nil =>
      obtain ⟨fuel, rfl⟩ := Nat.exists_eq_add_one_of_ne_zero (Nat.ne_zero_of_lt hfuel)
      have hvfuel : v.steps ≤ fuel := by
        rw [stepsMembers, stepsMembers] at hfuel
        omega
      rw [List.forall_mem_singleton] at hroom
      rw [readMembers, quoteOnto, skipGap_cons (by decide)]
      simp only [takeString_escapeOnto, Option.bind_eq_bind, Option.bind_some]
      rw [skipGap_cons (by decide)]
      simp only
      rw [readValue_append layout.isGap_behindColon,
        hv hvfuel hroom (stops_layMembers layout depth [] tail), layMembers]
      simp only [Option.bind_some]
      rw [skipGap_append (layout.isGap_before depth), skipGap_cons (by decide)]
      rfl
  | cons m rest ih =>
      obtain ⟨fuel, rfl⟩ := Nat.exists_eq_add_one_of_ne_zero (Nat.ne_zero_of_lt hfuel)
      have hvfuel : v.steps ≤ fuel ∧ stepsMembers (m :: rest) ≤ fuel := by
        rw [stepsMembers] at hfuel
        omega
      rw [List.forall_mem_cons] at hrest hroom
      have hread := ih hrest.1 hrest.2 hvfuel.2 hroom.2
      rw [readMembers, quoteOnto, skipGap_cons (by decide)]
      simp only [takeString_escapeOnto, Option.bind_eq_bind, Option.bind_some]
      rw [skipGap_cons (by decide)]
      simp only
      rw [readValue_append layout.isGap_behindColon,
        hv hvfuel.1 hroom.1 (stops_layMembers layout depth (m :: rest) tail), layMembers]
      simp only [Option.bind_some]
      rw [skipGap_cons (by decide)]
      simp only
      rw [readMembers_append (layout.isGap_before _), hread]
      rfl

/-- **Every value reads back** whose numbers read as they are written. -/
theorem readsBack_of_legible (layout : Layout) {value : Json} (h : value.Legible) :
    ReadsBack layout value := by
  intro fuel room depth tail hfuel hroom htail
  -- parts stand deeper, are followed by more of the value and are read with less fuel and room
  induction value using induction generalizing fuel room depth tail with
  | decimal text =>
      obtain ⟨fuel, rfl⟩ := Nat.exists_eq_add_one_of_ne_zero (Nat.ne_zero_of_lt hfuel)
      obtain ⟨n, hn, htext⟩ := h
      have hwritten : String.ofList (intOnto n []) = text := by
        rw [← htext, String.ofList_toList]
      rw [layOnto, append_of_text htext, readValue_intOnto_of_not_fits hn htail, hwritten]
  | null =>
      obtain ⟨fuel, rfl⟩ := Nat.exists_eq_add_one_of_ne_zero (Nat.ne_zero_of_lt hfuel)
      rw [readValue]
      rfl
  | bool b =>
      obtain ⟨fuel, rfl⟩ := Nat.exists_eq_add_one_of_ne_zero (Nat.ne_zero_of_lt hfuel)
      cases b <;> (rw [readValue]; rfl)
  | int n =>
      obtain ⟨fuel, rfl⟩ := Nat.exists_eq_add_one_of_ne_zero (Nat.ne_zero_of_lt hfuel)
      exact readValue_intOnto h htail
  | str s =>
      obtain ⟨fuel, rfl⟩ := Nat.exists_eq_add_one_of_ne_zero (Nat.ne_zero_of_lt hfuel)
      exact readValue_quoteOnto s tail
  | arr items ih =>
      obtain ⟨fuel, rfl⟩ := Nat.exists_eq_add_one_of_ne_zero (Nat.ne_zero_of_lt hfuel)
      obtain ⟨room, rfl⟩ := Nat.exists_eq_add_one_of_ne_zero (Nat.ne_zero_of_lt hroom)
      rw [legible_arr_iff] at h
      rw [nesting_arr_le_iff] at hroom
      cases items with
      | nil =>
          rw [readValue]
          rfl
      | cons v rest =>
          have hback : ∀ item ∈ v :: rest, ReadsBack layout item :=
            fun item hitem _ _ _ _ => ih item hitem (h item hitem)
          rw [List.forall_mem_cons] at h hback
          rw [layOnto]
          exact readValue_bracket (layout.isGap_before _) (opens_layOnto layout (depth + 1) h.1 _)
            (readItems_layItems hback.1 hback.2 (Nat.le_of_succ_le_succ hfuel) hroom)
  | obj members ih =>
      obtain ⟨fuel, rfl⟩ := Nat.exists_eq_add_one_of_ne_zero (Nat.ne_zero_of_lt hfuel)
      obtain ⟨room, rfl⟩ := Nat.exists_eq_add_one_of_ne_zero (Nat.ne_zero_of_lt hroom)
      rw [legible_obj_iff] at h
      rw [nesting_obj_le_iff] at hroom
      cases members with
      | nil =>
          rw [readValue]
          rfl
      | cons m rest =>
          have hback : ∀ n ∈ m :: rest, ReadsBack layout n.2 :=
            fun n hn _ _ _ _ => ih n hn (h n hn)
          rw [List.forall_mem_cons] at hback
          rw [layOnto]
          exact readValue_brace (layout.isGap_before _)
            (readMembers_layMembers hback.1 hback.2 (Nat.le_of_succ_le_succ hfuel) hroom)

/-- A value that reads back from its layout is what the text as a whole reads as, with blanks or
without them at its end. -/
theorem read?_layOnto (layout : Layout) (depth : Nat) {value : Json} (h : value.Legible)
    (hnesting : value.nesting ≤ nestingLimit) {gap : List Char}
    (hgap : ∀ c ∈ gap, isGap c = true) :
    read? (String.ofList (layOnto layout depth value gap)) = some value := by
  have hlength := steps_le_length layout depth value gap h
  have hsteps : value.steps ≤ (layOnto layout depth value gap).length + 1 := by omega
  have hend : skipGap gap = [] := by
    rw [← List.append_nil gap, skipGap_append hgap]
    rfl
  rw [read?, takeValue, String.toList_ofList,
    readsBack_of_legible layout h hsteps hnesting (stops_of_isGap hgap)]
  simp only [hend]
  rfl

/-- **The compact text of a value reads as the value.** -/
theorem read?_compact {value : Json} (h : value.Integral)
    (hnesting : value.nesting ≤ nestingLimit) :
    read? value.compact = some value := by
  rw [compact, compactOnto_eq 0]
  exact read?_layOnto _ _ h.legible hnesting nofun

/-- **The pretty text of a value reads as the value.** -/
theorem read?_pretty {value : Json} (h : value.Integral) (hnesting : value.nesting ≤ nestingLimit) :
    read? value.pretty = some value := by
  rw [pretty, prettyOnto_eq]
  exact read?_layOnto _ _ h.legible hnesting nofun

end

end Cartograph.Json
