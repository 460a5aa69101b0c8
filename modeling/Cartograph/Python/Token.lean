import Cartograph.Text.Word

/-!
# Tokens of Python files

What the characters at one place of a text are: a word, a number, an operator, the start of a
string, the end of the text, or something that no rule knows. A token never depends on what stands
before it; whether a word is a keyword is for the grammar to say.
-/

namespace Cartograph.Python

open Cartograph.Text

/-- How the characters of a string are to be read. -/
structure StringStyle where
  /-- Fields in braces are expressions. -/
  formatted : Bool
  /-- A backslash stands for itself. -/
  raw : Bool
  /-- The string holds bytes. -/
  bytes : Bool
  /-- The quote that ends the string. -/
  quote : Char
  /-- Three quotes end the string. -/
  triple : Bool
  deriving BEq, DecidableEq, Inhabited, Repr

/-- What stands at one place of a text. -/
inductive Token where
  | word (text : String)
  | number
  | op (text : String)
  /-- The flags and the opening quotes of a string. -/
  | stringStart (style : StringStyle)
  /-- A conversion such as `!r`, in a field of a formatted string. -/
  | conversion
  | ending
  | unknown
  deriving BEq, DecidableEq, Inhabited, Repr

namespace Token

/-! ## Numbers -/

/-- Digits of one class, an underscore allowed between any two and at the end; the number of
characters. `joined` says that the last character was an underscore. -/
def digitRun (isDigit : Char → Bool) (joined : Bool) : List Char → Nat
  | [] => 0
  | c :: cs =>
    if isDigit c then digitRun isDigit false cs + 1
    else if c = '_' && !joined then digitRun isDigit true cs + 1
    else 0

/-- The length of decimal digits; they begin with a digit. -/
def decimalRun : List Char → Nat
  | [] => 0
  | c :: cs => if isAsciiDigit c then digitRun isAsciiDigit false cs + 1 else 0

/-- The length of the digits after a base mark. Every underscore has a digit after it. -/
def basedRun (isDigit : Char → Bool) : List Char → Nat
  | [] => 0
  | '_' :: c :: cs => if isDigit c then basedRun isDigit cs + 2 else 0
  | c :: cs => if isDigit c then basedRun isDigit cs + 1 else 0

/-- The length of an exponent, zero if there is none. -/
def exponentRun : List Char → Nat
  | e :: sign :: cs =>
    if e = 'e' || e = 'E' then
      if sign = '+' || sign = '-' then
        if decimalRun cs = 0 then 0 else decimalRun cs + 2
      else if decimalRun (sign :: cs) = 0 then 0 else decimalRun (sign :: cs) + 1
    else 0
  | _ => 0

/-- One more if the next character is one of `marks`. -/
def markRun (marks : List Char) : List Char → Nat
  | c :: _ => if marks.contains c then 1 else 0
  | [] => 0

/-- A hexadecimal digit. -/
def isHexDigit (c : Char) : Bool :=
  isAsciiDigit c || ('a' ≤ c && c ≤ 'f') || ('A' ≤ c && c ≤ 'F')

/-- An octal digit. -/
def isOctalDigit (c : Char) : Bool :=
  '0' ≤ c && c ≤ '7'

/-- A binary digit. -/
def isBinaryDigit (c : Char) : Bool :=
  c = '0' || c = '1'

/-- The digits that a base mark announces. -/
def digitsOfBase? (mark : Char) : Option (Char → Bool) :=
  if mark = 'x' || mark = 'X' then some isHexDigit
  else if mark = 'o' || mark = 'O' then some isOctalDigit
  else if mark = 'b' || mark = 'B' then some isBinaryDigit
  else none

/-- The length of a number with a base mark, zero if the text does not begin with one. -/
def basedLength : List Char → Nat
  | '0' :: mark :: cs =>
    match digitsOfBase? mark with
    | some isDigit =>
      let n := basedRun isDigit cs
      if n = 0 then 0 else n + 2 + markRun ['l', 'L'] (cs.drop n)
    | none => 0
  | _ => 0

/-- The length of a number with a fraction or an exponent, zero if the text does not begin with
one. -/
def floatLength (cs : List Char) : Nat :=
  let whole := decimalRun cs
  let after := cs.drop whole
  let body :=
    match after with
    | '.' :: fraction =>
      let places := decimalRun fraction
      if whole = 0 && places = 0 then 0
      else whole + 1 + places + exponentRun (fraction.drop places)
    | _ =>
      let exponent := exponentRun after
      if whole = 0 || exponent = 0 then 0 else whole + exponent
  if body = 0 then 0 else body + markRun ['j', 'J'] (cs.drop body)

/-- The length of a plain whole number, zero if the text does not begin with one. -/
def wholeLength (cs : List Char) : Nat :=
  let whole := decimalRun cs
  if whole = 0 then 0 else whole + markRun ['l', 'L', 'j', 'J'] (cs.drop whole)

/-- The length of the longest number at the front of a text, zero if there is none. -/
def numberLength (cs : List Char) : Nat :=
  max (basedLength cs) (max (floatLength cs) (wholeLength cs))

/-! ## Strings -/

/-- The opening quotes of a string; the number of characters. -/
def quoteRun : List Char → Option (Char × Bool × Nat)
  | '`' :: _ => some ('`', false, 1)
  | '\'' :: '\'' :: '\'' :: _ => some ('\'', true, 3)
  | '\'' :: _ => some ('\'', false, 1)
  | '"' :: '"' :: '"' :: _ => some ('"', true, 3)
  | '"' :: _ => some ('"', false, 1)
  | _ => none

/-- The start of a string whose flags so far are those of `style`, and its length. -/
def stringStart? (style : StringStyle) : List Char → Option (StringStyle × Nat)
  | [] => none
  | c :: cs =>
    match quoteRun (c :: cs) with
    | some (quote, triple, n) => some ({ style with quote, triple }, n)
    | none =>
      if c = 'f' || c = 'F' then
        (stringStart? { style with formatted := true } cs).map fun (s, n) => (s, n + 1)
      else if c = 'r' || c = 'R' then
        (stringStart? { style with raw := true } cs).map fun (s, n) => (s, n + 1)
      else if c = 'b' || c = 'B' then
        (stringStart? { style with bytes := true } cs).map fun (s, n) => (s, n + 1)
      else if c = 'u' || c = 'U' then
        (stringStart? style cs).map fun (s, n) => (s, n + 1)
      else none

/-! ## Operators -/

/-- Operators of three characters. -/
def operators3 : List String :=
  ["**=", "//=", ">>=", "<<=", "..."]

/-- Operators of two characters. -/
def operators2 : List String :=
  ["!=", "->", ":=", "+=", "-=", "*=", "/=", "%=", "@=", "&=", "|=", "^=", "==", "<=", ">=", "<>",
    "<<", ">>", "**", "//"]

/-- Operators of one character. -/
def operators1 : List Char :=
  ['+', '-', '*', '/', '%', '@', '&', '|', '^', '~', '<', '>', '(', ')', '[', ']', '\x7b', '\x7d',
    ',', ':', '.', ';', '=']

/-- The longest operator at the front of a text. -/
def operator? (cs : List Char) : Option String :=
  let three := String.ofList (cs.take 3)
  let two := String.ofList (cs.take 2)
  if operators3.contains three then some three
  else if operators2.contains two then some two
  else match cs with
    | c :: _ => if operators1.contains c then some (String.ofList [c]) else none
    | [] => none

/-! ## One token -/

/-- The style of a string without flags. -/
def plainStyle : StringStyle :=
  { formatted := false, raw := false, bytes := false, quote := '"', triple := false }

/-- The token at the front of a text and its length. -/
def read (cs : List Char) : Token × Nat :=
  match cs with
  | [] => (.ending, 0)
  | c :: rest =>
    match stringStart? plainStyle cs with
    | some (style, n) => (.stringStart style, n)
    | none =>
      if isIdentifierStart c then
        let word := c :: rest.takeWhile isIdentifierPart
        (.word (String.ofList word), word.length)
      else
        let n := numberLength cs
        if n ≠ 0 then (.number, n)
        else match operator? cs with
          | some text => (.op text, text.length)
          | none =>
            match c, rest with
            | '!', d :: _ => if 'a' ≤ d && d ≤ 'z' then (.conversion, 2) else (.unknown, 1)
            | _, _ => (.unknown, 1)

end Token

end Cartograph.Python
