import Cartograph.Json.Reader
import Cartograph.Text.Overflow

/-!
# Bodies of requests

A request to analyze a repository has a JSON body: an object with the path of the repository, or an
array with nothing but that path. A body is read from left to right, and of two faults the first
counts.
-/

namespace Cartograph.Service

open Json

/-- What is wrong with a body. -/
inductive BodyFault where
  /-- It is no JSON text. -/
  | malformed
  /-- It is JSON, but no such request. -/
  | unfit
  deriving DecidableEq, Inhabited, Repr

/-- The member that holds the path of the repository. -/
def pathKey : String :=
  "repo_path"

/-! ## Values that do not fit -/

/-- A fault once the text is known to be well-formed so far. -/
def unfitIf {α : Type} : Option α → BodyFault
  | some _ => .unfit
  | none => .malformed

/-- The exponent that a number is written with. -/
def exponentOf (cs : List Char) : Int :=
  match cs with
  | _ :: '-' :: ds => -(Text.Decimal.ofDigits ds : Int)
  | _ :: '+' :: ds => Text.Decimal.ofDigits ds
  | _ :: ds => Text.Decimal.ofDigits ds
  | [] => 0

/-- The text after a number without its sign, unless the number is too large. -/
def skipNumber (cs : List Char) : Option (List Char) := do
  let (whole, r) ← takeWhole cs
  let (fraction, r) ← takeFraction r
  let (exponent, r) ← takeExponent r
  let digits := whole ++ fraction.drop 1
  if (whole.head? = some '0' && r.head?.any Text.Decimal.isDigit)
      || Text.Decimal.overflows digits (exponentOf exponent - (fraction.drop 1).length) then none
  else return r

/-- The fault of a value, at its first character, where another sort of value has to stand. -/
def misfit : List Char → BodyFault
  | [] => .malformed
  | c :: rest =>
    if c = '\x7b' || c = '[' then .unfit
    else if c = '"' then unfitIf (takeString rest)
    else if c = 'n' then unfitIf (takeWord "ull".toList rest)
    else if c = 't' then unfitIf (takeWord "rue".toList rest)
    else if c = 'f' then unfitIf (takeWord "alse".toList rest)
    else if c = '-' then unfitIf (skipNumber rest)
    else if Text.Decimal.isDigit c then unfitIf (skipNumber (c :: rest))
    else .malformed

/-! ## Reading -/

/-- A string. -/
def readText (cs : List Char) : Except BodyFault (String × List Char) :=
  match skipGap cs with
  | '"' :: rest =>
    match takeString rest with
    | some found => .ok found
    | none => .error .malformed
  | cs => .error (misfit cs)

/-- The path, once nothing but blanks follows. -/
def finish (path : String) (rest : List Char) : Except BodyFault String :=
  if (skipGap rest).isEmpty then .ok path else .error .malformed

/-- A body that is an array, after its opening bracket. -/
def readArray (cs : List Char) : Except BodyFault String :=
  match skipGap cs with
  | [] => .error .malformed
  | ']' :: _ => .error .unfit
  | cs => do
    let (path, rest) ← readText cs
    match skipGap rest with
    | ']' :: rest => finish path rest
    | _ => .error .malformed

/-- A key, after its opening quote, and the text after its colon. The path is not given twice. -/
def readKey (found? : Option String) (cs : List Char) : Except BodyFault (String × List Char) :=
  match takeString cs with
  | none => .error .malformed
  | some (key, rest) =>
    if key = pathKey && found?.isSome then .error .unfit
    else
      match skipGap rest with
      | ':' :: rest => .ok (key, rest)
      | _ => .error .malformed

/-- The opening quote of a key and the text after it, behind a comma unless the key is the first. -/
def beforeKey (isFirst : Bool) (cs : List Char) : Option (List Char) :=
  match isFirst, cs with
  | true, '"' :: rest => some rest
  | false, ',' :: rest =>
    match skipGap rest with
    | '"' :: rest => some rest
    | _ => none
  | _, _ => none

/-- The members of a body that is an object; `found?` is the path if it has been read, and `fuel`
bounds the number of members. -/
def readMembers (found? : Option String) (isFirst : Bool) :
    Nat → List Char → Except BodyFault String
  | 0, _ => .error .malformed
  | fuel + 1, cs =>
    match skipGap cs with
    | '\x7d' :: rest =>
      match found? with
      | some path => finish path rest
      | none => .error .unfit
    | cs =>
      match beforeKey isFirst cs with
      | none => .error .malformed
      | some cs => do
        let (key, rest) ← readKey found? cs
        if key = pathKey then
          let (path, rest) ← readText rest
          readMembers (some path) false fuel rest
        else
          match skipValue rest with
          | some rest => readMembers found? false fuel rest
          | none => .error .malformed

/-- The path of the repository that a body asks for. -/
def readBody (cs : List Char) : Except BodyFault String :=
  match skipGap cs with
  | '[' :: rest => readArray rest
  | '\x7b' :: rest => readMembers none true (rest.length + 1) rest
  | cs => .error (misfit cs)

end Cartograph.Service
