import Cartograph.Json.Basic

/-!
# TOML values

What the value of a key in a TOML document can be, and which JSON value a program that reads it
sees. A date or a time of day is seen as an object with one member.
-/

namespace Cartograph

/-- A TOML value. -/
inductive Toml where
  | str (value : String)
  | int (value : Int)
  /-- A number with a fraction or an exponent, or one that is not finite; its text. -/
  | float (text : String)
  | bool (value : Bool)
  /-- A date, a time of day or both; the text. -/
  | moment (text : String)
  | arr (items : List Toml)
  | table (members : List (String × Toml))
  deriving BEq, Inhabited, Repr

namespace Toml

/-- The one member that a date or a time of day is seen as. -/
def momentKey : String :=
  "moment"

mutual

/-- The value as JSON. -/
def toJson : Toml → Json
  | str s => .str s
  | int n => .int n
  | float text => .decimal text
  | bool b => .bool b
  | moment text => .obj [(momentKey, .str text)]
  | arr items => .arr (itemsToJson items)
  | table members => .obj (membersToJson members)

/-- What `toJson` makes of every item. -/
def itemsToJson : List Toml → List Json
  | [] => []
  | v :: rest => toJson v :: itemsToJson rest

/-- What `toJson` makes of the value of every member. -/
def membersToJson : List (String × Toml) → List (String × Json)
  | [] => []
  | (k, v) :: rest => (k, toJson v) :: membersToJson rest

end

end Toml

end Cartograph
