import Cartograph.Toml.Basic

/-!
# Building tables

A document states its tables piece by piece: by headers, by keys with dots, and by values. A table
may be added to as long as it was only mentioned on the way to another; a table stated in full, or
given as a value, is closed. Both ways to add to a table answer with nothing where the document
contradicts itself.
-/

namespace Cartograph.Toml

/-- How a table came about. -/
inductive Origin where
  /-- It has a header of its own. -/
  | stated
  /-- A header went through it. -/
  | implied
  /-- A key with dots went through it. -/
  | dotted
  deriving DecidableEq, Repr

/-- What is known of a key so far. -/
inductive Draft where
  | value (v : Toml)
  | table (origin : Origin) (entries : List (String × Draft))
  /-- The tables of one array, the last first. -/
  | tables (rows : List (List (String × Draft)))
  deriving Inhabited

/-- The keys of a table so far. -/
abbrev Entries := List (String × Draft)

/-! ## Entries -/

/-- What is known of a key. -/
def Entries.find? (entries : Entries) (key : String) : Option Draft :=
  (List.find? (fun entry => entry.1 = key) entries).map (·.2)

/-- The entries with one changed or added. -/
def Entries.put : Entries → String → Draft → Entries
  | [], key, draft => [(key, draft)]
  | (k, d) :: rest, key, draft =>
    if k = key then (k, draft) :: rest else (k, d) :: put rest key draft

/-! ## Adding -/

/-- Gives a key with dots a value. Tables on the way may not have headers of their own, and the
table that takes the value must be open. -/
def assign (value : Toml) : List String → (isOpen : Bool) → Entries → Option Entries
  | [], _, _ => none
  | [key], isOpen, entries =>
    if isOpen && (entries.find? key).isNone then some (entries.put key (.value value)) else none
  | key :: more, _, entries =>
    match entries.find? key with
    | none => (assign value more true []).map fun inner => entries.put key (.table .dotted inner)
    | some (.table .dotted inner) =>
      (assign value more true inner).map fun inner => entries.put key (.table .dotted inner)
    | some (.table .implied inner) =>
      (assign value more false inner).map fun inner => entries.put key (.table .implied inner)
    | some (.tables (row :: rows)) =>
      (assign value more false row).map fun row => entries.put key (.tables (row :: rows))
    | some _ => none

/-- Changes what a header names. Tables on the way need not be there yet, and of an array of tables
the last is meant. -/
def change (f : Option Draft → Option Draft) : List String → Entries → Option Entries
  | [], _ => none
  | [key], entries => (f (entries.find? key)).map (entries.put key)
  | key :: more, entries =>
    match entries.find? key with
    | none => (change f more []).map fun inner => entries.put key (.table .implied inner)
    | some (.table origin inner) =>
      (change f more inner).map fun inner => entries.put key (.table origin inner)
    | some (.tables (row :: rows)) =>
      (change f more row).map fun row => entries.put key (.tables (row :: rows))
    | some _ => none

/-! ## Sections -/

/-- A key with dots and its value. -/
abbrev Assignment := List String × Toml

/-- What a header announces. -/
inductive Header where
  | table (path : List String)
  | row (path : List String)
  deriving Repr

/-- Adds assignments to a table. -/
def fill (entries : Entries) (assignments : List Assignment) : Option Entries :=
  assignments.foldlM (fun entries a => assign a.2 a.1 true entries) entries

/-- What a header makes of what its name stands for so far, with the assignments below it. -/
def Header.apply (assignments : List Assignment) : Header → Option Draft → Option Draft
  | .table _, none => (fill [] assignments).map (.table .stated)
  | .table _, some (.table .implied inner) => (fill inner assignments).map (.table .stated)
  | .table _, some _ => none
  | .row _, none => (fill [] assignments).map fun row => .tables [row]
  | .row _, some (.tables rows) => (fill [] assignments).map fun row => .tables (row :: rows)
  | .row _, some _ => none

/-- The key that a header names. -/
def Header.path : Header → List String
  | .table path => path
  | .row path => path

/-- Adds a header and the assignments below it to a document. -/
def addSection (entries : Entries) (part : Header × List Assignment) : Option Entries :=
  change (part.1.apply part.2) part.1.path entries

/-! ## Finished tables -/

mutual

/-- The value of a key. -/
def Draft.finish : Draft → Toml
  | .value v => v
  | .table _ entries => .table (finishEntries entries)
  | .tables rows => .arr (finishRows rows [])

/-- The members of a table. -/
def finishEntries : List (String × Draft) → List (String × Toml)
  | [] => []
  | (key, draft) :: rest => (key, draft.finish) :: finishEntries rest

/-- The tables of an array, put before `after` in their order. -/
def finishRows : List (List (String × Draft)) → List Toml → List Toml
  | [], after => after
  | row :: rows, after => finishRows rows (.table (finishEntries row) :: after)

end

end Cartograph.Toml
