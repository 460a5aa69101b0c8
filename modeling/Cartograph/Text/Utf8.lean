/-!
# UTF-8

Reading bytes as text. `decodeLossy` never fails: each maximal malformed run of bytes that could
have begun a character becomes one replacement character. `decode?` accepts well-formed text only.
-/

namespace Cartograph.Text.Utf8

/-! ## One character -/

/-- The character that stands for malformed bytes. -/
def replacement : Char := '\ufffd'

/-- A byte that continues a character. -/
def isTail (b : UInt8) : Bool :=
  0x80 ≤ b && b ≤ 0xbf

/-- The bytes that may follow a lead byte of three or four bytes: overlong forms, surrogates and
codes past the last character are excluded here. -/
def isSecond (lead b : UInt8) : Bool :=
  if lead = 0xe0 then 0xa0 ≤ b && b ≤ 0xbf
  else if lead = 0xed then 0x80 ≤ b && b ≤ 0x9f
  else if lead = 0xf0 then 0x90 ≤ b && b ≤ 0xbf
  else if lead = 0xf4 then 0x80 ≤ b && b ≤ 0x8f
  else isTail b

/-- The low six bits of a continuation byte. -/
def tailBits (b : UInt8) : Nat :=
  b.toNat % 64

/-- The character that starts with `lead`, or none for a malformed run, and the bytes after it. -/
def takeChar (lead : UInt8) (rest : List UInt8) : Option Char × List UInt8 :=
  if lead < 0x80 then (some (Char.ofNat lead.toNat), rest)
  else if lead < 0xc2 then (none, rest)
  else if lead < 0xe0 then
    match rest with
    | b :: r => if isTail b then (some (Char.ofNat (lead.toNat % 32 * 64 + tailBits b)), r)
                else (none, rest)
    | [] => (none, rest)
  else if lead < 0xf0 then
    match rest with
    | b :: r =>
      if isSecond lead b then
        match r with
        | c :: r' =>
          if isTail c then
            (some (Char.ofNat ((lead.toNat % 16 * 64 + tailBits b) * 64 + tailBits c)), r')
          else (none, r)
        | [] => (none, r)
      else (none, rest)
    | [] => (none, rest)
  else if lead < 0xf5 then
    match rest with
    | b :: r =>
      if isSecond lead b then
        match r with
        | c :: r' =>
          if isTail c then
            match r' with
            | d :: r'' =>
              if isTail d then
                (some (Char.ofNat (((lead.toNat % 8 * 64 + tailBits b) * 64 + tailBits c) * 64
                  + tailBits d)), r'')
              else (none, r')
            | [] => (none, r')
          else (none, r)
        | [] => (none, r)
      else (none, rest)
    | [] => (none, rest)
  else (none, rest)

/-- Reading a character consumes its lead byte at least. -/
theorem takeChar_length_le (lead : UInt8) (rest : List UInt8) :
    (takeChar lead rest).2.length ≤ rest.length := by
  unfold takeChar
  repeat' split
  all_goals simp_all
  all_goals omega

/-! ## Texts -/

/-- The text of a byte sequence, malformed runs replaced; `acc` holds what is read so far, last
character first. -/
def decodeLossyOnto (acc : List Char) : List UInt8 → List Char
  | [] => acc.reverse
  | b :: rest =>
    decodeLossyOnto ((takeChar b rest).1.getD replacement :: acc) (takeChar b rest).2
  termination_by bytes => bytes.length
  decreasing_by
    have := takeChar_length_le b rest
    simp only [List.length_cons]
    omega

/-- The text of a byte sequence, each malformed run replaced by one replacement character. -/
def decodeLossy (bytes : List UInt8) : List Char :=
  decodeLossyOnto [] bytes

/-- The text of a well-formed byte sequence after `acc`, last character first. -/
def decodeOnto? (acc : List Char) : List UInt8 → Option (List Char)
  | [] => some acc.reverse
  | b :: rest =>
    match (takeChar b rest).1 with
    | some c => decodeOnto? (c :: acc) (takeChar b rest).2
    | none => none
  termination_by bytes => bytes.length
  decreasing_by
    have := takeChar_length_le b rest
    simp only [List.length_cons]
    omega

/-- The text of a byte sequence, if the sequence is well-formed. -/
def decode? (bytes : List UInt8) : Option (List Char) :=
  decodeOnto? [] bytes

/-- The bytes of a text. -/
def encode (s : String) : List UInt8 :=
  s.toList.flatMap String.utf8EncodeChar

end Cartograph.Text.Utf8
