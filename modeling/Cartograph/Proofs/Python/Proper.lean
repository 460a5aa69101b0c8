import Cartograph.Proofs.Python.Names

/-!
# What is proper in a text

A text has so many lines, and what is read off it stands on one of them: the places that reading
goes through, the forms of the trees that it builds and the faults that stop it. Together with what
a rule of the grammar may make of a form this is one property of all the data that readers take and
give (`Proper`), and a reader is sound if what it gives has the property whenever what it takes has
it (`Inherits`).
-/

namespace Cartograph.Python

/-! ## Every form of a tree -/

mutual

/-- Every form in the tree, with its line, is as wanted. -/
def Tree.Every (wanted : Form → Nat → Prop) : Tree → Prop
  | .node form line parts => wanted form line ∧ Tree.EveryIn wanted parts

/-- Every form in one of the trees, with its line, is as wanted. -/
def Tree.EveryIn (wanted : Form → Nat → Prop) : List Tree → Prop
  | [] => True
  | part :: rest => part.Every wanted ∧ Tree.EveryIn wanted rest

end

namespace Tree

section

variable {wanted other : Form → Nat → Prop} {t : Tree} {ts us : List Tree}

theorem everyIn_append : EveryIn wanted (ts ++ us) ↔ EveryIn wanted ts ∧ EveryIn wanted us := by
  induction ts with
  | nil => simp [EveryIn]
  | cons t ts ih => simp [EveryIn, ih, and_assoc]

theorem everyIn_reverse : EveryIn wanted ts.reverse ↔ EveryIn wanted ts := by
  induction ts with
  | nil => rfl
  | cons t ts ih => simp [EveryIn, everyIn_append, ih, and_comm]

mutual

theorem Every.imp (h : ∀ form line, wanted form line → other form line) :
    ∀ {t : Tree}, t.Every wanted → t.Every other
  | .node form line _, ht => ⟨h form line ht.1, EveryIn.imp h ht.2⟩

theorem EveryIn.imp (h : ∀ form line, wanted form line → other form line) :
    ∀ {ts : List Tree}, EveryIn wanted ts → EveryIn other ts
  | [], _ => trivial
  | _ :: _, hts => ⟨Every.imp h hts.1, EveryIn.imp h hts.2⟩

end

mutual

/-- A walk meets nothing but forms of the tree. -/
theorem Every.of_mem_visits {decorators : List Tree} {visit : Visit} :
    ∀ {t : Tree}, t.Every wanted → visit ∈ t.visits decorators →
      wanted visit.tree.form visit.tree.line
  | .node form line parts, h, hvisit => by
      rw [visits] at hvisit
      rcases List.mem_cons.mp hvisit with rfl | hvisit
      · exact h.1
      · exact EveryIn.of_mem_visitsAll h.2 hvisit

theorem EveryIn.of_mem_visitsAll {decorators : List Tree} {visit : Visit} :
    ∀ {ts : List Tree}, EveryIn wanted ts → visit ∈ visitsAll decorators ts →
      wanted visit.tree.form visit.tree.line
  | [], _, hvisit => by cases hvisit
  | first :: rest, h, hvisit => by
      rw [visitsAll] at hvisit
      rcases List.mem_append.mp hvisit with hvisit | hvisit
      · exact Every.of_mem_visits h.1 hvisit
      · exact EveryIn.of_mem_visitsAll h.2 hvisit

end

mutual

theorem Every.named : ∀ {t : Tree}, (t.Every fun form _ => form.Named) → t.Named
  | .node _ _ _, h => ⟨h.1, EveryIn.allNamed h.2⟩

theorem EveryIn.allNamed :
    ∀ {ts : List Tree}, EveryIn (fun form _ => form.Named) ts → AllNamed ts
  | [], _ => trivial
  | _ :: _, h => ⟨Every.named h.1, EveryIn.allNamed h.2⟩

end

end

end Tree

/-! ## What is proper -/

/-- A sort of data that readers take or give, and what is proper of it in a text. -/
class Checked (α : Type) where
  /-- It is proper in a text of so many lines. -/
  Proper (last : Nat) (a : α) : Prop

open Checked (Proper)

/-- A line is one of the lines of the text. -/
instance : Checked Nat := ⟨fun last line => 1 ≤ line ∧ line ≤ last⟩

/-- A form is no fault, and a definition has an identifier for a name. -/
instance : Checked Form := ⟨fun _ form => form.Named ∧ Tree.isFault form = false⟩

/-- All forms of a tree are proper and stand on lines of the text. -/
instance : Checked Tree :=
  ⟨fun last t => t.Every fun form line => Proper last form ∧ Proper last line⟩

instance : Checked (List Tree) :=
  ⟨fun last ts => Tree.EveryIn (fun form line => Proper last form ∧ Proper last line) ts⟩

/-- A cursor stands on a line of the text, and so will all that comes after it. -/
instance : Checked Cursor :=
  ⟨fun last c => 1 ≤ c.line ∧ c.line + c.text.count '\n' ≤ last ∧ c.rest.Sublist c.text⟩

/-- A place inside a string is on a line of the text, and so will be all that comes after it. -/
instance : Checked Inside := ⟨fun last s => 1 ≤ s.line ∧ s.line + s.rest.count '\n' ≤ last⟩

/-- A fault stands on a line of the text. -/
instance : Checked Fault := ⟨fun last fault => Proper last fault.line⟩

instance : Checked Bool := ⟨fun _ _ => True⟩

instance : Checked String := ⟨fun _ _ => True⟩

instance : Checked (List String) := ⟨fun _ _ => True⟩

section

variable {α β : Type} [Checked α] [Checked β] {last : Nat}

instance : Checked (Option α) := ⟨fun last o => ∀ a, o = some a → Proper last a⟩

instance : Checked (α × β) := ⟨fun last p => Proper last p.1 ∧ Proper last p.2⟩

/-- A reading is proper if what is read is, or else the fault. -/
instance : Checked (Except Fault α) where
  Proper last
    | .ok a => Proper last a
    | .error fault => Proper last fault

@[grind .] theorem proper_bool {b : Bool} : Proper last b := trivial

@[grind .] theorem proper_string {s : String} : Proper last s := trivial

@[grind .] theorem proper_strings {ss : List String} : Proper last ss := trivial

@[grind .] theorem proper_none : Proper last (none : Option α) := nofun

@[grind =] theorem proper_some {a : α} : Proper last (some a) ↔ Proper last a :=
  ⟨fun h => h a rfl, fun h _ heq => Option.some.inj heq ▸ h⟩

@[grind =] theorem proper_pair {a : α} {b : β} :
    Proper last (a, b) ↔ Proper last a ∧ Proper last b :=
  Iff.rfl

@[grind =] theorem proper_ok {a : α} :
    Proper last (.ok a : Except Fault α) ↔ Proper last a :=
  Iff.rfl

@[grind =] theorem proper_ok_pair {a : α} {b : β} :
    Proper last (.ok (a, b) : Except Fault (α × β)) ↔ Proper last a ∧ Proper last b :=
  Iff.rfl

@[grind =] theorem proper_error {fault : Fault} :
    Proper last (.error fault : Except Fault α) ↔ Proper last fault :=
  Iff.rfl

/-! ### Trees -/

@[grind =] theorem proper_form {form : Form} :
    Proper last form ↔ form.Named ∧ Tree.isFault form = false :=
  Iff.rfl

@[grind =] theorem proper_node {form : Form} {line : Nat} {parts : List Tree} :
    Proper last (Tree.node form line parts) ↔
      (Proper last form ∧ Proper last line) ∧ Proper last parts :=
  Iff.rfl

@[grind .] theorem proper_nil : Proper last ([] : List Tree) := trivial

@[grind =] theorem proper_cons {t : Tree} {ts : List Tree} :
    Proper last (t :: ts) ↔ Proper last t ∧ Proper last ts :=
  Iff.rfl

@[grind =] theorem proper_append {ts us : List Tree} :
    Proper last (ts ++ us) ↔ Proper last ts ∧ Proper last us :=
  Tree.everyIn_append

@[grind =] theorem proper_reverse {ts : List Tree} : Proper last ts.reverse ↔ Proper last ts :=
  Tree.everyIn_reverse

@[grind .] theorem proper_line {t : Tree} (h : Proper last t) : Proper last t.line := by
  cases t
  exact h.1.2

@[grind .] theorem proper_wrap {line : Nat} {ts : List Tree} (hline : Proper last line)
    (hts : Proper last ts) : Proper last (wrap line ts) := by
  unfold wrap
  split
  · exact hts.1
  · exact ⟨⟨⟨Form.named_other, rfl⟩, hline⟩, proper_reverse.mpr hts⟩

@[grind →] theorem proper_starUnder {line : Nat} {t u : Tree} (h : starUnder line t = some u)
    (ht : Proper last t) (hline : Proper last line) : Proper last u := by
  fun_induction starUnder line t generalizing u <;> grind [Option.map_eq_some_iff, Tree.isFault]

/-! ### Places -/

/-- Between two tokens a line begins with every line break. -/
theorem line_pass (gap : Gap) (inComment : Bool) (cs : List Char) :
    (gap.pass inComment cs).1.line + (gap.pass inComment cs).2.count '\n' =
      gap.line + cs.count '\n' ∧ gap.line ≤ (gap.pass inComment cs).1.line := by
  fun_induction Gap.pass gap inComment cs <;>
    grind [Gap.finish, Gap.remark, Gap.newline, Gap.joined, Gap.blank, Gap.reset, Gap.invisible]

theorem proper_enter {line position : Nat} {cs : List Char} (hline : 1 ≤ line)
    (hcs : line + cs.count '\n' ≤ last) : Proper last (Cursor.enter line position cs) := by
  obtain ⟨hsum, hle⟩ := line_pass { line, position } false cs
  exact ⟨Nat.le_trans hline hle, hsum ▸ hcs, List.drop_sublist _ _⟩

/-- How many lines a text has. -/
def lineCount (cs : List Char) : Nat :=
  1 + cs.count '\n'

/-- A text begins on its first line. -/
theorem proper_begin (cs : List Char) : Proper (lineCount cs) (Cursor.begin cs) := by
  unfold Cursor.begin
  split
  · rename_i rest
    -- a mark in front of the text is passed over
    have hrest : 1 + rest.count '\n' ≤ lineCount ('\ufeff' :: rest) := by simp [lineCount]
    exact proper_enter (Nat.le_refl 1) hrest
  · exact proper_enter (Nat.le_refl 1) (Nat.le_refl _)

@[grind .] theorem proper_inside {c : Cursor} (h : Proper last c) : Proper last c.inside :=
  ⟨h.1, Nat.le_trans (Nat.add_le_add_left (h.2.2.count_le '\n') _) h.2.1⟩

@[grind .] theorem proper_next {c : Cursor} (h : Proper last c) : Proper last c.next :=
  proper_enter (proper_inside h).1 (proper_inside h).2

@[grind .] theorem proper_afterBracket {c : Cursor} (h : Proper last c) :
    Proper last c.afterBracket :=
  h

@[grind .] theorem proper_cursor_line {c : Cursor} (h : Proper last c) : Proper last c.line :=
  ⟨h.1, Nat.le_trans (Nat.le_add_right _ _) h.2.1⟩

@[grind .] theorem proper_fault {c : Cursor} (h : Proper last c) : Proper last c.fault :=
  proper_cursor_line h

@[grind .] theorem proper_stuck {c : Cursor} (h : Proper last c) :
    Proper last (stuck c : Except Fault α) :=
  proper_fault h

/-- The place after the colon in a field. -/
@[grind .] theorem proper_afterColon {c : Cursor} (h : Proper last c) :
    Proper last ({ line := c.line, position := c.start + 1, rest := c.text.drop 1 } : Inside) :=
  ⟨h.1, Nat.le_trans (Nat.add_le_add_left ((List.drop_sublist 1 c.text).count_le '\n') _) h.2.1⟩

namespace Inside

@[grind .] theorem proper_advance {s : Inside} (h : Proper last s) (n : Nat) :
    Proper last (s.advance n) := by
  have hcount : (s.rest.take n).count '\n' + (s.rest.drop n).count '\n' = s.rest.count '\n' := by
    rw [← List.count_append, List.take_append_drop]
  refine ⟨Nat.le_trans h.1 (Nat.le_add_right _ _), ?_⟩
  rw [advance, Nat.add_assoc, hcount]
  exact h.2

@[grind .] theorem proper_cursor {s : Inside} (h : Proper last s) : Proper last s.cursor :=
  proper_enter h.1 h.2

@[grind .] theorem proper_fault {s : Inside} (h : Proper last s) : Proper last s.fault :=
  ⟨h.1, Nat.le_trans (Nat.le_add_right _ _) h.2⟩

end Inside

@[grind .] theorem proper_later {f g : Fault} (hf : Proper last f) (hg : Proper last g) :
    Proper last (f.later g) := by
  unfold Fault.later
  split
  · exact hg
  · exact hf

/-! ## Readers -/

/-- What a reader gives is proper if what it takes is. -/
def Inherits (last : Nat) (given : α) (taken : β) : Prop :=
  Proper last taken → Proper last given

@[grind =] theorem inherits_iff {a : α} {b : β} :
    Inherits last a b ↔ (Proper last b → Proper last a) :=
  Iff.rfl

@[grind =] theorem inherits_pair {γ : Type} [Checked γ] {a : α} {b : β} {c : γ} :
    Inherits last a (b, c) ↔ (Proper last b → Proper last c → Proper last a) :=
  ⟨fun h hb hc => h ⟨hb, hc⟩, fun h hbc => h hbc.1 hbc.2⟩

@[grind =] theorem inherits_triple {γ δ : Type} [Checked γ] [Checked δ] {a : α} {b : β} {c : γ}
    {d : δ} : Inherits last a (b, c, d) ↔
      (Proper last b → Proper last c → Proper last d → Proper last a) :=
  ⟨fun h hb hc hd => h ⟨hb, hc, hd⟩, fun h hbcd => h hbcd.1 hbcd.2.1 hbcd.2.2⟩

/-- A reading and a second one after it. -/
theorem proper_bind {δ : Type} {x : Except Fault δ} {f : δ → Except Fault α} :
    Proper last (x >>= f) ↔
      (∀ fault, x = .error fault → Proper last fault) ∧ ∀ d, x = .ok d → Proper last (f d) := by
  cases x <;> simp [bind, Except.bind, proper_error]

theorem proper_map_of {x : Except Fault α} {f : α → β} (hx : Proper last x)
    (hf : ∀ a, Proper last a → Proper last (f a)) : Proper last (x.map f) := by
  cases x with
  | ok a => exact hf a hx
  | error fault => exact hx

omit [Checked α] in
@[grind =] theorem pure_eq_ok (a : α) : (pure a : Except Fault α) = .ok a := rfl

theorem proper_pure {a : α} : Proper last (pure a : Except Fault α) ↔ Proper last a := Iff.rfl

theorem proper_ite {p : Prop} [Decidable p] {a b : α} :
    Proper last (if p then a else b) ↔ (p → Proper last a) ∧ (¬p → Proper last b) := by
  split <;> simp [*]

/-- The rules are sound: what they give is proper if the cursor they are given is. -/
@[grind] def Rules.Proper (last : Nat) (rules : Rules) : Prop :=
  ∀ goal c, Inherits last (rules goal c) c

end

end Cartograph.Python
