import Cartograph.Text.Utf8

/-!
# Names and paths as a system has them

What a system has for a name or a path is bytes, which need not be a text. A text stands for its
bytes. What is shown of other bytes has replacement characters in it, so that different names may be
shown alike.
-/

namespace Cartograph

/-- A name or a path as a system has it. -/
structure RawText where
  bytes : List UInt8
  deriving DecidableEq, Inhabited, Repr

namespace RawText

/-- The bytes of a text. -/
def ofText (s : String) : RawText :=
  ⟨Text.Utf8.encode s⟩

instance : Coe String RawText := ⟨ofText⟩

/-- The text that is shown, malformed bytes replaced. -/
def shown (raw : RawText) : String :=
  String.ofList (Text.Utf8.decodeLossy raw.bytes)

/-- The text that the bytes stand for, if they stand for one. -/
def text? (raw : RawText) : Option String :=
  (Text.Utf8.decode? raw.bytes).map String.ofList

/-- How many bytes there are. -/
def size (raw : RawText) : Nat :=
  raw.bytes.length

/-- There are no bytes. -/
def isEmpty (raw : RawText) : Bool :=
  raw.bytes.isEmpty

theorem isEmpty_iff {raw : RawText} : raw.isEmpty = true ↔ raw = "" := by
  obtain ⟨bytes⟩ := raw
  cases bytes with
  | nil => simp [isEmpty, ofText, Text.Utf8.encode]
  | cons b rest => simp [isEmpty, ofText, Text.Utf8.encode]

/-- The bytes of one and then those of another. -/
def append (a b : RawText) : RawText :=
  ⟨a.bytes ++ b.bytes⟩

instance : Append RawText := ⟨append⟩

/-- Bytes are compared one by one. -/
instance : LT RawText := ⟨fun a b => a.bytes < b.bytes⟩

instance (a b : RawText) : Decidable (a < b) :=
  inferInstanceAs (Decidable (a.bytes < b.bytes))

end RawText

end Cartograph
