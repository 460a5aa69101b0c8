import Std.Data.HashMap

/-!
# Look-up tables

Tables built from a list of entries in which a key may stand more than once. In one the first entry
of a key counts, in the other the last. Main statements: a look-up agrees with a search through the
list (`getElem?_firstWins`, `getElem?_lastWins`).
-/

namespace Cartograph

/-- A table from texts to identifiers. -/
abbrev Table := Std.HashMap String String

namespace Table

/-- The table in which the first entry of a key counts. -/
def firstWins (entries : List (String × String)) : Table :=
  entries.foldr (fun entry table => table.insert entry.1 entry.2) {}

/-- The table in which the last entry of a key counts. -/
def lastWins (entries : List (String × String)) : Table :=
  entries.foldl (fun table entry => table.insert entry.1 entry.2) {}

theorem getElem?_firstWins (entries : List (String × String)) (key : String) :
    (firstWins entries)[key]? = (entries.find? fun entry => entry.1 == key).map (·.2) := by
  induction entries with
  | nil => simp [firstWins]
  | cons entry rest ih =>
    have step : firstWins (entry :: rest) = (firstWins rest).insert entry.1 entry.2 := rfl
    rw [step, Std.HashMap.getElem?_insert, List.find?_cons, ih]
    by_cases h : (entry.1 == key) = true <;> simp [h]

theorem lastWins_eq (entries : List (String × String)) :
    lastWins entries = firstWins entries.reverse := by
  simp [lastWins, firstWins]

theorem getElem?_lastWins (entries : List (String × String)) (key : String) :
    (lastWins entries)[key]? = (entries.reverse.find? fun entry => entry.1 == key).map (·.2) := by
  rw [lastWins_eq, getElem?_firstWins]

end Table

end Cartograph
