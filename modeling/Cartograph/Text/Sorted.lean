/-!
# Sorted texts

A list of texts with each text once and in order. Texts are ordered by the codes of their
characters, which is the order of their bytes. Main statement: sorting neither loses nor adds a
text (`mem_sorted`).
-/

namespace Cartograph.Text

/-- Drops every text that equals the one before it. -/
def dropRepeats : List String → List String
  | [] => []
  | [s] => [s]
  | s :: t :: rest => if s = t then dropRepeats (t :: rest) else s :: dropRepeats (t :: rest)

/-- The texts in order, each once. -/
def sorted (texts : List String) : List String :=
  dropRepeats (texts.mergeSort fun a b => !(b < a))

theorem mem_dropRepeats {s : String} {texts : List String} :
    s ∈ dropRepeats texts ↔ s ∈ texts := by
  fun_induction dropRepeats texts with
  | case1 => simp
  | case2 t => simp
  | case3 t rest ih => simp [ih]
  | case4 t u rest _ ih => simp [ih]

theorem mem_sorted {s : String} {texts : List String} : s ∈ sorted texts ↔ s ∈ texts := by
  simp [sorted, mem_dropRepeats, List.mem_mergeSort]

end Cartograph.Text
