import Cartograph.Text.Blank
import Cartograph.Text.Split
import Cartograph.Text.Word

/-!
# Patterns in text

A pattern says what a text has to show from some place on, and which parts of it are captured. It is
read once from left to right and takes nothing back: a run takes all it can, and of two patterns the
first that fits is taken for good. A pattern that would have to take something back repeats what
follows in each of its branches.

`occurrences` finds a pattern from the left, each search going on behind the last find.
-/

namespace Cartograph

open Text

/-- What a text has to show. -/
inductive Pattern where
  /-- These characters. -/
  | word (text : List Char)
  /-- One allowed character. -/
  | one (allowed : Char → Bool)
  /-- All allowed characters there are, at least so many. -/
  | run (least : Nat) (allowed : Char → Bool)
  /-- A part that is captured. -/
  | capture (p : Pattern)
  | andThen (p q : Pattern)
  /-- The first pattern, or the second where the first does not fit. -/
  | orElse (p q : Pattern)
  /-- A part as often as it fits. -/
  | many (p : Pattern)

namespace Pattern

instance : Append Pattern := ⟨andThen⟩

/-! ## Building -/

/-- Nothing at all. -/
def nothing : Pattern :=
  word []

/-- A literal text. -/
def text (s : String) : Pattern :=
  word s.toList

/-- A part that may be missing. -/
def optional (p : Pattern) : Pattern :=
  orElse p nothing

/-- What no text shows. -/
def never : Pattern :=
  one fun _ => false

/-- The first of several patterns that fits. -/
def firstOf (patterns : List Pattern) : Pattern :=
  patterns.foldr orElse never

/-- The first of several words that the text shows. -/
def oneOf (words : List String) : Pattern :=
  firstOf (words.map text)

/-- Any white space. -/
def blanks : Pattern :=
  run 0 isBlank

/-- Some white space. -/
def gap : Pattern :=
  run 1 isBlank

/-- A word. -/
def name : Pattern :=
  run 1 isWord

/-! ## Reading -/

/-- What a pattern took from the front of a text. -/
structure Found where
  length : Nat
  captures : List String
  rest : List Char
  deriving Inhabited, Repr

/-- A find right behind another. -/
def Found.followedBy (f g : Found) : Found :=
  { length := f.length + g.length, captures := f.captures ++ g.captures, rest := g.rest }

/-- Goes on with `step` as often as it fits, `fuel` times at most. -/
def goOn (step : List Char → Option Found) : Nat → Found → Found
  | 0, found => found
  | fuel + 1, found =>
    match step found.rest with
    | some next => goOn step fuel (found.followedBy next)
    | none => found

/-- What the pattern takes from the front of a text, if it fits. -/
def take : Pattern → List Char → Option Found
  | word lead, cs => (stripLead? lead cs).map fun rest => ⟨lead.length, [], rest⟩
  | one allowed, c :: cs => if allowed c then some ⟨1, [], cs⟩ else none
  | one _, [] => none
  | run least allowed, cs =>
    let (taken, rest) := cs.span allowed
    if least ≤ taken.length then some ⟨taken.length, [], rest⟩ else none
  | capture p, cs =>
    (take p cs).map fun f => { f with captures := String.ofList (cs.take f.length) :: f.captures }
  | andThen p q, cs =>
    match take p cs with
    | some f => (take q f.rest).map f.followedBy
    | none => none
  | orElse p q, cs =>
    match take p cs with
    | some f => some f
    | none => take q cs
  | many p, cs => some (goOn (take p) cs.length ⟨0, [], cs⟩)

/-! ## Searching -/

/-- A place where a pattern was found, with what was captured. -/
structure Occurrence where
  /-- The line on which the find begins, counted from one. -/
  line : Nat
  captures : List String
  deriving DecidableEq, Inhabited, Repr

/-- Finds in a text that begins on `line` and whose next `skip` characters are taken already. -/
def occurrencesFrom (p : Pattern) (line skip : Nat) : List Char → List Occurrence
  | [] => []
  | c :: cs =>
    let next := if c = '\n' then line + 1 else line
    match skip with
    | skip + 1 => occurrencesFrom p next skip cs
    | 0 =>
      match take p (c :: cs) with
      | some found => ⟨line, found.captures⟩ :: occurrencesFrom p next (found.length - 1) cs
      | none => occurrencesFrom p next 0 cs

/-- Where the pattern is found, from the left and without overlaps. -/
def occurrences (p : Pattern) (cs : List Char) : List Occurrence :=
  occurrencesFrom p 1 0 cs

/-- The first capture of every find, with its line. -/
def firstCaptures (p : Pattern) (cs : List Char) : List (Nat × String) :=
  (p.occurrences cs).filterMap fun o => o.captures.head?.map fun s => (o.line, s)

/-- The pattern is found somewhere. -/
def occursIn (p : Pattern) : List Char → Bool
  | [] => false
  | c :: cs => (take p (c :: cs)).isSome || occursIn p cs

end Pattern

end Cartograph
