import Cartograph.Text.Case
import Cartograph.Text.Word

/-!
# Media types

A body is announced by a media type: a type, a subtype that may end in a plus sign and a suffix, and
parameters. Letter case does not matter. JSON is the subtype or the suffix `json` of the type
`application`.
-/

namespace Cartograph.Service

open Text

/-- A character of a name in a media type. -/
def isTokenChar (c : Char) : Bool :=
  isAsciiLetter c || isAsciiDigit c || "!#$%&'*+-.^_`|~".toList.contains c

/-- A character between the quotes of a parameter. -/
def isQuotable (c : Char) : Bool :=
  c != '"' && c.toNat ≥ 0x20 && c.toNat < 0x7f

/-- The value of a parameter; the text from the next parameter on. -/
def skipParameterValue : List Char → Option (List Char)
  | '"' :: rest =>
    match rest.span isQuotable with
    | (_ :: _, '"' :: after) =>
      match after.dropWhile (· = ' ') with
      | [] => some []
      | ';' :: more => some more
      | _ => none
    | _ => none
  | cs =>
    match cs.span isTokenChar with
    | (_, []) => some []
    | (_ :: _, ';' :: more) => some more
    | _ => none

/-- The parameters of a media type are well-formed; `fuel` bounds their number. -/
def parametersFit : Nat → List Char → Bool
  | 0, _ => false
  | fuel + 1, cs =>
    match cs.dropWhile (· = ' ') with
    | [] => true
    | cs =>
      match cs.span isTokenChar with
      | (_ :: _, '=' :: value) =>
        match skipParameterValue value with
        | some rest => parametersFit fuel rest
        | none => false
      | _ => false

/-- The text before the last plus sign that is not the first character, and the text after it. -/
def cutSuffix (subtype : List Char) : List Char × Option (List Char) :=
  match (subtype.reverse.span (· != '+')) with
  | (suffix, _ :: before) =>
    if before.isEmpty then (subtype, none) else (before.reverse, some suffix.reverse)
  | (_, []) => (subtype, none)

/-- The subtype announces JSON. -/
def isJsonSubtype (subtype : List Char) : Bool :=
  let (base, suffix?) := cutSuffix (subtype.map asciiLower)
  base = "json".toList || suffix? = some "json".toList

/-- The media type announces JSON. -/
def announcesJson (mediaType : String) : Bool :=
  match mediaType.toList.span isTokenChar with
  | (kind, '/' :: rest) =>
    let (subtype, parameters) := rest.span isTokenChar
    let wellFormed :=
      match parameters with
      | [] => true
      | ';' :: more => parametersFit (more.length + 1) more
      | _ => false
    wellFormed && kind.map asciiLower = "application".toList && isJsonSubtype subtype
  | _ => false

end Cartograph.Service
