import Cartograph.Text.Raw

/-!
# Command lines

A command line gives a command options and operands. An option has a long name and maybe a letter;
its value follows as an argument of its own, behind an equals sign, or right behind the letter. An
argument of two hyphens ends the options, and no option is given twice. The first argument that is
wrong or asks for help decides.
-/

namespace Cartograph.Command

/-! ## Options -/

/-- The byte of a hyphen. -/
def hyphen : UInt8 :=
  0x2d

/-- The byte between a name and its value. -/
def equalsSign : UInt8 :=
  0x3d

/-- An option of a command. -/
structure OptionSpec where
  name : String
  letter? : Option UInt8 := none
  /-- Which values the option can have; an option without values just stands there. -/
  accepts? : Option (RawText → Bool) := none

/-- The name of the option that asks for help. -/
def helpName : String :=
  "help"

/-- The option that asks for help. -/
def helpOption : OptionSpec :=
  { name := helpName, letter? := some 0x68 }

/-- What an argument turns out to be. -/
inductive Item where
  | flag (name : String)
  | value (name : String) (value : RawText)
  | operand (text : RawText)
  deriving DecidableEq, Inhabited, Repr

/-- The name of the option that is given. -/
def Item.name? : Item → Option String
  | .flag name => some name
  | .value name _ => some name
  | .operand _ => none

/-- What is known once arguments are read. -/
inductive Reading where
  | items (all : List Item)
  /-- Help was asked for before anything was wrong. -/
  | help
  /-- The arguments are wrong. -/
  | wrong
  deriving DecidableEq, Inhabited, Repr

/-- The reading with one more item in front. -/
def Reading.add (item : Item) : Reading → Reading
  | .items rest => .items (item :: rest)
  | reading => reading

/-! ## Single arguments -/

/-- What an argument starts. -/
inductive Start where
  | item (item : Item)
  /-- An option whose value is the next argument. -/
  | pending (spec : OptionSpec)
  /-- Nothing but operands follows. -/
  | operands
  | help
  | wrong

/-- The option with a value. -/
def OptionSpec.with (spec : OptionSpec) (value : RawText) : Start :=
  if spec.accepts?.any (· value) then .item (.value spec.name value) else .wrong

/-- The option without a value. -/
def OptionSpec.alone (spec : OptionSpec) : Start :=
  if spec.accepts?.isSome then .pending spec
  else if spec.name = helpName then .help
  else .item (.flag spec.name)

/-- An option given by its long name. -/
def startLong (specs : List OptionSpec) (bytes : List UInt8) : Start :=
  let (name, attached) := bytes.span (· != equalsSign)
  match specs.find? fun spec => (spec.name : RawText) = ⟨name⟩ with
  | some spec =>
    match attached with
    | _ :: value => spec.with ⟨value⟩
    | [] => spec.alone
  | none => .wrong

/-- An option given by its letter, right behind which its value may stand. -/
def startLetter (specs : List OptionSpec) (letter : UInt8) (bytes : List UInt8) : Start :=
  match specs.find? fun spec => spec.letter? = some letter with
  | some spec =>
    if spec.accepts?.isSome then
      match bytes with
      | [] => spec.alone
      | sign :: value => spec.with ⟨if sign = equalsSign then value else sign :: value⟩
    else spec.alone
  | none => .wrong

/-- What an argument starts. A hyphen alone is an operand, and no operand is empty. -/
def start (specs : List OptionSpec) (argument : RawText) : Start :=
  match argument.bytes with
  | [] => .wrong
  | first :: bytes =>
    if first ≠ hyphen then .item (.operand argument)
    else
      match bytes with
      | [] => .item (.operand argument)
      | letter :: rest =>
        if letter ≠ hyphen then startLetter specs letter rest
        else if rest = [] then .operands
        else startLong specs rest

/-- The argument cannot be the value of the option before it. -/
def looksLikeOption (argument : RawText) : Bool :=
  argument.bytes.head? = some hyphen && 1 < argument.size

/-! ## All arguments -/

/-- Arguments behind the end of the options; `room` is how many operands there may be. -/
def readOperands : (room : Nat) → List RawText → Reading
  | _, [] => .items []
  | 0, _ :: _ => .wrong
  | room + 1, argument :: rest =>
    if argument.isEmpty then .wrong else (readOperands room rest).add (.operand argument)

/-- Reads arguments; `room` is how many operands there may be, and `given` are the names of the
options before. -/
def readArguments (specs : List OptionSpec) :
    (room : Nat) → (given : List String) → List RawText → Reading
  | _, _, [] => .items []
  | room, given, argument :: rest =>
    match start specs argument with
    | .item (.operand text) =>
      match room with
      | 0 => .wrong
      | room + 1 => (readArguments specs room given rest).add (.operand text)
    | .item item =>
      if item.name?.any given.contains then .wrong
      else (readArguments specs room (item.name?.toList ++ given) rest).add item
    | .pending spec =>
      match rest with
      | [] => .wrong
      | value :: rest =>
        if looksLikeOption value || given.contains spec.name then .wrong
        else
          match spec.with value with
          | .item item => (readArguments specs room (spec.name :: given) rest).add item
          | _ => .wrong
    | .operands => readOperands room rest
    | .help => .help
    | .wrong => .wrong

/-! ## Looking into items -/

/-- The option stands among the items. -/
def hasFlag (name : String) (items : List Item) : Bool :=
  items.contains (.flag name)

/-- The value of an option. -/
def valueOf? (name : String) (items : List Item) : Option RawText :=
  items.findSome? fun item =>
    match item with
    | .value n v => if n = name then some v else none
    | _ => none

/-- The operands in order. -/
def operands (items : List Item) : List RawText :=
  items.filterMap fun item =>
    match item with
    | .operand text => some text
    | _ => none

end Cartograph.Command
