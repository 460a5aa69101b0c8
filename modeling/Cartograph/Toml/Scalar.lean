import Cartograph.Json.Reader
import Cartograph.Text.Overflow
import Cartograph.Text.Split
import Cartograph.Toml.Basic

/-!
# Single TOML values

How strings, numbers, dates and times of day are written. Every reader takes a value from the front
of a text and gives the characters after it.
-/

namespace Cartograph.Toml

open Text

/-! ## Characters -/

/-- A blank within a line. -/
def isSpace (c : Char) : Bool :=
  c = ' ' || c = '\t'

/-- A character that may stand in comments and strings. -/
def isPlain (c : Char) : Bool :=
  c = '\t' || (c.toNat ≥ 0x20 && c.toNat != 0x7f)

/-- A hexadecimal digit. -/
def isHexDigit (c : Char) : Bool :=
  (Json.hexValue? c).isSome

/-- The text after blanks. -/
def skipSpaces (cs : List Char) : List Char :=
  cs.dropWhile isSpace

/-- The text after a line break. -/
def takeBreak? : List Char → Option (List Char)
  | '\n' :: rest => some rest
  | '\r' :: '\n' :: rest => some rest
  | _ => none

theorem length_skipSpaces_le (cs : List Char) : (skipSpaces cs).length ≤ cs.length :=
  (List.dropWhile_suffix isSpace).length_le

theorem length_of_takeBreak? {cs rest : List Char} (h : takeBreak? cs = some rest) :
    rest.length < cs.length := by
  unfold takeBreak? at h
  split at h
  · simp only [Option.some.injEq] at h
    simp [h]
  · simp only [Option.some.injEq] at h
    simp only [h, List.length_cons]
    omega
  · simp at h

/-! ## Strings -/

/-- The number that hexadecimal digits denote. -/
def ofHexDigits (cs : List Char) : Nat :=
  cs.foldl (fun n c => n * 16 + (Json.hexValue? c).getD 0) 0

/-- The character whose code is given by `count` hexadecimal digits. -/
def takeCode (count : Nat) (cs : List Char) : Option (Char × List Char) :=
  let ds := cs.take count
  let code := ofHexDigits ds
  if ds.length = count && ds.all isHexDigit && (code < 0xd800 || (0xe000 ≤ code && code < 0x110000))
  then some (Char.ofNat code, cs.drop count)
  else none

/-- The character that an escape stands for, after the backslash. -/
def takeEscape : List Char → Option (Char × List Char)
  | 'b' :: rest => some ('\x08', rest)
  | 't' :: rest => some ('\t', rest)
  | 'n' :: rest => some ('\n', rest)
  | 'f' :: rest => some ('\x0c', rest)
  | 'r' :: rest => some ('\r', rest)
  | '"' :: rest => some ('"', rest)
  | '\\' :: rest => some ('\\', rest)
  | 'u' :: rest => takeCode 4 rest
  | 'U' :: rest => takeCode 8 rest
  | _ => none

theorem length_of_takeCode {count : Nat} {cs : List Char} {c : Char} {rest : List Char}
    (h : takeCode count cs = some (c, rest)) : rest.length ≤ cs.length := by
  simp only [takeCode] at h
  split at h
  · simp only [Option.some.injEq, Prod.mk.injEq] at h
    rw [← h.2, List.length_drop]
    omega
  · simp at h

/-- An escape is taken off the text. -/
theorem length_of_takeEscape {cs : List Char} {c : Char} {rest : List Char}
    (h : takeEscape cs = some (c, rest)) : rest.length < cs.length := by
  unfold takeEscape at h
  split at h
  case h_8 => exact Nat.lt_succ_of_le (length_of_takeCode h)
  case h_9 => exact Nat.lt_succ_of_le (length_of_takeCode h)
  case h_10 => simp at h
  all_goals
    simp only [Option.some.injEq, Prod.mk.injEq] at h
    simp [h.2]

/-- The rest of a string with escapes after its opening quote; `acc` holds what is read so far, last
character first. -/
def takeBasic (acc : List Char) : List Char → Option (String × List Char)
  | [] => none
  | c :: rest =>
    if c = '"' then some (String.ofList acc.reverse, rest)
    else if c = '\\' then
      match h : takeEscape rest with
      | some (e, r) =>
        have := length_of_takeEscape h
        takeBasic (e :: acc) r
      | none => none
    else if isPlain c then takeBasic (c :: acc) rest
    else none
  termination_by cs => cs.length
  decreasing_by
  · exact Nat.lt_succ_of_lt this
  · exact Nat.lt_succ_self _

/-- The rest of a string without escapes after its opening quote. -/
def takeLiteral (cs : List Char) : Option (String × List Char) :=
  match cs.span fun c => c != '\'' && isPlain c with
  | (taken, '\'' :: rest) => some (String.ofList taken, rest)
  | _ => none

/-- The text after the blanks and line breaks that a backslash at the end of a line skips. There has
to be a line break. -/
def skipFolded (cs : List Char) : Option (List Char) :=
  (takeBreak? (skipSpaces cs)).map fun rest =>
    rest.dropWhile fun c => isSpace c || c = '\n' || c = '\r'

theorem length_of_skipFolded {cs rest : List Char} (h : skipFolded cs = some rest) :
    rest.length < cs.length := by
  obtain ⟨r, hbreak, rfl⟩ := Option.map_eq_some_iff.mp h
  have hspaces := length_skipSpaces_le cs
  have hlt := length_of_takeBreak? hbreak
  have hle := (List.dropWhile_suffix (l := r) fun c => isSpace c || c = '\n' || c = '\r').length_le
  omega

/-- What a run of quotes in a string over several lines adds to it, and whether it closes the
string: three quotes close it, and up to two before them belong to it. -/
def quotesIn (run : Nat) : Nat × Bool :=
  if run < 3 then (run, false) else (min run 5 - 3, true)

/-- The rest of a string over several lines. -/
def takeLong (quote : Char) (escapes : Bool) (acc : List Char) :
    List Char → Option (String × List Char)
  | [] => none
  | c :: rest =>
    if c = quote then
      let run := (rest.takeWhile (· = quote)).length
      let (added, closes) := quotesIn (run + 1)
      let acc := List.replicate added quote ++ acc
      if closes then some (String.ofList acc.reverse, rest.drop (added + 2))
      else takeLong quote escapes acc (rest.drop run)
    else if escapes && c = '\\' then
      match hfold : skipFolded rest with
      | some r =>
        have := length_of_skipFolded hfold
        takeLong quote escapes acc r
      | none =>
        match hescape : takeEscape rest with
        | some (e, r) =>
          have := length_of_takeEscape hescape
          takeLong quote escapes (e :: acc) r
        | none => none
    else if isPlain c then takeLong quote escapes (c :: acc) rest
    else
      match hbreak : takeBreak? (c :: rest) with
      | some r =>
        have := length_of_takeBreak? hbreak
        takeLong quote escapes ('\n' :: acc) r
      | none => none
  termination_by cs => cs.length
  decreasing_by
  · exact Nat.lt_succ_of_le (List.drop_suffix run rest).length_le
  · exact Nat.lt_succ_of_lt this
  · exact Nat.lt_succ_of_lt this
  · exact Nat.lt_succ_self _
  · exact this

/-- A string over several lines after its opening quotes; a line break right behind them does not
count. -/
def takeLongFrom (quote : Char) (escapes : Bool) (cs : List Char) :
    Option (String × List Char) :=
  takeLong quote escapes [] ((takeBreak? cs).getD cs)

/-- A string on one line, which may also be a key. -/
def takeShortString : List Char → Option (String × List Char)
  | '"' :: rest => takeBasic [] rest
  | '\'' :: rest => takeLiteral rest
  | _ => none

/-- A string. -/
def takeString : List Char → Option (String × List Char)
  | '"' :: '"' :: '"' :: rest => takeLongFrom '"' true rest
  | '\'' :: '\'' :: '\'' :: rest => takeLongFrom '\'' false rest
  | cs => takeShortString cs

/-! ## Numbers -/

/-- Further digits, between any two of which one underscore may stand; `acc` holds the digits
before, last first. -/
def takeMoreDigits (allowed : Char → Bool) (acc : List Char) :
    List Char → Option (List Char × List Char)
  | [] => some (acc.reverse, [])
  | ['_'] => none
  | '_' :: c :: rest => if allowed c then takeMoreDigits allowed (c :: acc) rest else none
  | c :: rest =>
    if allowed c then takeMoreDigits allowed (c :: acc) rest else some (acc.reverse, c :: rest)

/-- Digits with underscores between them; there has to be one. -/
def takeDigits (allowed : Char → Bool) : List Char → Option (List Char × List Char)
  | c :: rest => if allowed c then takeMoreDigits allowed [c] rest else none
  | [] => none

/-- The whole part of a decimal number: a zero alone, or digits that do not begin with zero. -/
def takeWhole : List Char → Option (List Char × List Char)
  | '0' :: rest => some (['0'], rest)
  | cs => takeDigits Decimal.isDigit cs

/-- The fraction of a number: its digits. -/
def takeFraction : List Char → Option (List Char × List Char)
  | '.' :: rest => takeDigits Decimal.isDigit rest
  | cs => some ([], cs)

/-- The exponent of a number. -/
def takeExponent : List Char → Option (Option Int × List Char)
  | c :: rest =>
    if c = 'e' || c = 'E' then
      match rest with
      | '-' :: r => (takeDigits Decimal.isDigit r).map fun (ds, r) =>
        (some (-(Decimal.ofDigits ds : Int)), r)
      | '+' :: r => (takeDigits Decimal.isDigit r).map fun (ds, r) =>
        (some (Decimal.ofDigits ds : Int), r)
      | r => (takeDigits Decimal.isDigit r).map fun (ds, r) =>
        (some (Decimal.ofDigits ds : Int), r)
    else some (none, c :: rest)
  | [] => some (none, [])

/-- A number that fits a signed 64-bit word. -/
def int64? (n : Int) : Option Toml :=
  if Int64.minValue.toInt ≤ n && n ≤ Int64.maxValue.toInt then some (.int n) else none

/-- A decimal number without its sign. -/
def takeDecimal (negative : Bool) (cs : List Char) : Option (Toml × List Char) := do
  let (whole, afterWhole) ← takeWhole cs
  let (fraction, afterFraction) ← takeFraction afterWhole
  let (exponent, rest) ← takeExponent afterFraction
  if fraction.isEmpty && exponent.isNone then
    let n : Int := Decimal.ofDigits whole
    return (← int64? (if negative then -n else n), rest)
  else if !negative
      && Decimal.overflows (whole ++ fraction) (exponent.getD 0 - fraction.length) then none
  else return (.float (String.ofList (cs.take (cs.length - rest.length))), rest)

/-- A whole number written with another base, after what announces the base. -/
def takeBased (base : Nat) (cs : List Char) : Option (Toml × List Char) := do
  let (ds, rest) ← takeDigits (fun c => (Json.hexValue? c).any (· < base)) cs
  let n := ds.foldl (fun n c => n * base + (Json.hexValue? c).getD 0) 0
  return (← int64? n, rest)

/-- A number that is not finite, after its sign. -/
def takeSpecial (cs : List Char) : Option (Toml × List Char) :=
  match stripLead? "inf".toList cs with
  | some rest => some (.float "inf", rest)
  | none => (stripLead? "nan".toList cs).map fun rest => (.float "nan", rest)

/-- A number after its sign. -/
def takeUnsigned (negative : Bool) (cs : List Char) : Option (Toml × List Char) :=
  match takeSpecial cs with
  | some found => some found
  | none => takeDecimal negative cs

/-- A number. -/
def takeNumber : List Char → Option (Toml × List Char)
  | '0' :: 'x' :: rest => takeBased 16 rest
  | '0' :: 'o' :: rest => takeBased 8 rest
  | '0' :: 'b' :: rest => takeBased 2 rest
  | '+' :: rest => takeUnsigned false rest
  | '-' :: rest => takeUnsigned true rest
  | cs => takeUnsigned false cs

/-! ## Dates and times of day -/

/-- A number of exactly so many digits. -/
def takeFixed (count : Nat) (cs : List Char) : Option (Nat × List Char) :=
  let ds := cs.take count
  if ds.length = count && ds.all Decimal.isDigit then some (Decimal.ofDigits ds, cs.drop count)
  else none

/-- A number of two digits from a range. -/
def takeTwo (low high : Nat) (cs : List Char) : Option (Nat × List Char) := do
  let (n, rest) ← takeFixed 2 cs
  if low ≤ n && n ≤ high then some (n, rest) else none

/-- A given character. -/
def takeMark (mark : Char) : List Char → Option (List Char)
  | c :: rest => if c = mark then some rest else none
  | [] => none

/-- How many days a month has. -/
def daysIn (year month : Nat) : Nat :=
  if month = 2 then
    if year % 4 = 0 && (year % 100 != 0 || year % 400 = 0) then 29 else 28
  else if month = 4 || month = 6 || month = 9 || month = 11 then 30
  else 31

/-- A date; the text after it. -/
def takeDate (cs : List Char) : Option (List Char) := do
  let (year, cs) ← takeFixed 4 cs
  let (month, cs) ← takeTwo 1 12 (← takeMark '-' cs)
  let (_, cs) ← takeTwo 1 (daysIn year month) (← takeMark '-' cs)
  return cs

/-- The fraction of a second, if there is one. -/
def takeSecondFraction : List Char → Option (List Char)
  | '.' :: rest =>
    match rest.span Decimal.isDigit with
    | ([], _) => none
    | (_, r) => some r
  | cs => some cs

/-- A time of day; the text after it. -/
def takeTime (cs : List Char) : Option (List Char) := do
  let (_, cs) ← takeTwo 0 23 cs
  let (_, cs) ← takeTwo 0 59 (← takeMark ':' cs)
  let (_, cs) ← takeTwo 0 60 (← takeMark ':' cs)
  takeSecondFraction cs

/-- The distance from universal time, if there is one. -/
def takeOffset : List Char → Option (List Char)
  | c :: rest =>
    if c = 'Z' || c = 'z' then some rest
    else if c = '+' || c = '-' then do
      let (_, r) ← takeTwo 0 23 rest
      let (_, r) ← takeTwo 0 59 (← takeMark ':' r)
      return r
    else some (c :: rest)
  | [] => some []

/-- The time of day that may follow a date. -/
def takeTimeOfDate : List Char → Option (List Char)
  | c :: rest =>
    if c = 'T' || c = 't' || c = ' ' then
      match takeTime rest with
      | some r => takeOffset r
      | none => some (c :: rest)
    else some (c :: rest)
  | [] => some []

/-- A date, a time of day or both. -/
def takeMoment (cs : List Char) : Option (Toml × List Char) := do
  let rest ← match takeDate cs with
    | some rest => takeTimeOfDate rest
    | none => takeTime cs
  return (.moment (String.ofList (cs.take (cs.length - rest.length))), rest)

end Cartograph.Toml
