/-!
# JSON values

A value as the format has it: members of an object stand in the order in which they were written.
`canonical` forgets that order. It sorts the members of every object by key, and of two members
with one key it keeps the later.
-/

namespace Cartograph

/-- A JSON value. Whole numbers that fit a signed or an unsigned 64-bit word are `int`; every other
number is `decimal` and keeps its text. -/
inductive Json where
  | null
  | bool (value : Bool)
  | int (value : Int)
  | decimal (text : String)
  | str (value : String)
  | arr (items : List Json)
  | obj (members : List (String × Json))
  deriving BEq, Inhabited, Repr

namespace Json

/-! ## Looking into a value -/

/-- The value of the first member called `key`. -/
def member? (key : String) : List (String × Json) → Option Json
  | [] => none
  | (k, v) :: rest => if k = key then some v else member? key rest

/-- The members of an object. -/
def members? : Json → Option (List (String × Json))
  | .obj members => some members
  | _ => none

/-- The text of a string. -/
def string? : Json → Option String
  | .str s => some s
  | _ => none

/-- A truth value. -/
def bool? : Json → Option Bool
  | .bool b => some b
  | _ => none

/-- A whole number that is not negative. -/
def nat? : Json → Option Nat
  | .int (.ofNat n) => some n
  | _ => none

/-- Every item of an array, read by `f`. -/
def listOf? {α : Type} (f : Json → Option α) : Json → Option (List α)
  | .arr items => items.mapM f
  | _ => none

/-! ## Members sorted by key -/

/-- Puts a member into its place among sorted members, in place of one with the same key. -/
def insertMember (key : String) (value : Json) : List (String × Json) → List (String × Json)
  | [] => [(key, value)]
  | (k, v) :: rest =>
    if key < k then (key, value) :: (k, v) :: rest
    else if key = k then (key, value) :: rest
    else (k, v) :: insertMember key value rest

/-- The members in the order of their keys; of two with one key the later stays. -/
def sortMembers (members : List (String × Json)) : List (String × Json) :=
  members.foldl (fun sorted m => insertMember m.1 m.2 sorted) []

mutual

/-- The same value with the members of every object sorted. -/
def canonical : Json → Json
  | .arr items => .arr (canonicalItems items)
  | .obj members => .obj (sortMembers (canonicalMembers members))
  | v => v

/-- What `canonical` makes of every item. -/
def canonicalItems : List Json → List Json
  | [] => []
  | v :: rest => canonical v :: canonicalItems rest

/-- What `canonical` makes of the value of every member. -/
def canonicalMembers : List (String × Json) → List (String × Json)
  | [] => []
  | (k, v) :: rest => (k, canonical v) :: canonicalMembers rest

end

/-! ## Small laws -/

theorem member?_insertMember (key : String) (value : Json) (members : List (String × Json)) :
    member? key (insertMember key value members) = some value := by
  fun_induction insertMember key value members with
  | case1 => simp [member?]
  | case2 k v rest _ => simp [member?]
  | case3 v rest _ => simp [member?]
  | case4 k v rest _ hne ih => rw [member?, if_neg (Ne.symm hne), ih]

/-- Members with other keys are left alone. -/
theorem member?_insertMember_of_ne {key other : String} (h : key ≠ other) (value : Json)
    (members : List (String × Json)) :
    member? other (insertMember key value members) = member? other members := by
  fun_induction insertMember key value members with
  | case1 => simp [member?, h]
  | case2 k v rest _ => rw [member?, if_neg h]
  | case3 v rest _ => rw [member?, if_neg h, member?, if_neg h]
  | case4 k v rest _ _ ih => rw [member?, ih, member?]

end Json

end Cartograph
