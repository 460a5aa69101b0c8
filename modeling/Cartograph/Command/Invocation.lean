import Cartograph.Command.Arguments
import Cartograph.Text.Decimal

/-!
# Commands

What a command line asks for. There are commands to analyze a repository, to write a file with all
settings, and to serve analyses.
-/

namespace Cartograph.Command

open Text

/-- What a text about the program is about. -/
inductive Topic where
  | program
  | analyze
  | init
  | serve
  | help
  deriving DecidableEq, Inhabited, Repr

/-- What a command line asks for. -/
inductive Invocation where
  | analyze (path : RawText) (output : Option RawText) (compact : Bool)
  | init (force : Bool)
  | serve (port : UInt16)
  | help (topic : Topic)
  deriving DecidableEq, Inhabited, Repr

/-! ## Values -/

/-- A port: a number that fits an unsigned 16-bit word. -/
def port? (text : RawText) : Option UInt16 :=
  (Decimal.below? UInt16.size text.shown).map UInt16.ofNat

/-- The port that is served unless told otherwise. -/
def usualPort : UInt16 :=
  8000

/-! ## Options -/

/-- The option that names the file to write to. -/
def outputOption : OptionSpec :=
  { name := "output", letter? := some 0x6f, accepts? := some fun path => !path.isEmpty }

/-- The option for a graph on one line. -/
def compactOption : OptionSpec :=
  { name := "compact" }

/-- The option to overwrite a file. -/
def forceOption : OptionSpec :=
  { name := "force" }

/-- The option that names the port. -/
def portOption : OptionSpec :=
  { name := "port", letter? := some 0x70, accepts? := some fun text => (port? text).isSome }

/-! ## Reading command lines -/

/-- What the items after `analyze` ask for. The path has to be there. -/
def analyzeOf? (items : List Item) : Option Invocation :=
  (operands items).head?.map fun path =>
    .analyze path (valueOf? outputOption.name items) (hasFlag compactOption.name items)

/-- What the items after `init` ask for. -/
def initOf? (items : List Item) : Option Invocation :=
  some (.init (hasFlag forceOption.name items))

/-- What the items after `serve` ask for. -/
def serveOf? (items : List Item) : Option Invocation :=
  some (.serve (((valueOf? portOption.name items).bind port?).getD usualPort))

/-- What a reading asks for, a command being about `topic`. -/
def Reading.invocation? (topic : Topic) (of? : List Item → Option Invocation) :
    Reading → Option Invocation
  | .items all => of? all
  | .help => some (.help topic)
  | .wrong => none

/-- The topic of the command with a name. -/
def topicOf? (name : RawText) : Option Topic :=
  if name = "analyze" then some .analyze
  else if name = "init" then some .init
  else if name = "serve" then some .serve
  else if name = "help" then some .help
  else none

/-- What asks for help on a topic. -/
def helpOn? : List RawText → Option Invocation
  | [] => some (.help .program)
  | [name] => (topicOf? name).map .help
  | _ => none

/-- What a command line asks for, or nothing if it is wrong. -/
def Invocation.ofArguments? : List RawText → Option Invocation
  | [] => none
  | name :: rest =>
    match topicOf? name with
    | some .analyze =>
      (readArguments [outputOption, compactOption, helpOption] 1 [] rest).invocation? .analyze
        analyzeOf?
    | some .init => (readArguments [forceOption, helpOption] 0 [] rest).invocation? .init initOf?
    | some .serve =>
      (readArguments [portOption, helpOption] 0 [] rest).invocation? .serve serveOf?
    | some .help => helpOn? rest
    | some .program | none =>
      match start [helpOption] name with
      | .help => some (.help .program)
      | _ => none

/-! ## Texts about the program -/

/-- What a reader who asks for help is told. -/
def Topic.text : Topic → String
  | .program => "Structural code graph of a repository

Usage: landscape <COMMAND>

Commands:
  analyze  Analyze a repository and print its graph as JSON
  init     Write a default landscape.toml in the current directory
  serve    Serve the analysis API
  help     Print this message or the help of the given subcommand(s)

Options:
  -h, --help  Print help
"
  | .analyze => "Analyze a repository and print its graph as JSON

Usage: landscape analyze [OPTIONS] <PATH>

Arguments:
  <PATH>  Repository root

Options:
  -o, --output <OUTPUT>  Write the graph to a file instead of stdout
      --compact          Single-line JSON
  -h, --help             Print help
"
  | .init => "Write a default landscape.toml in the current directory

Usage: landscape init [OPTIONS]

Options:
      --force  Overwrite an existing file
  -h, --help   Print help
"
  | .serve => "Serve the analysis API

Usage: landscape serve [OPTIONS]

Options:
  -p, --port <PORT>  Port to listen on [default: 8000]
  -h, --help         Print help
"
  | .help => "Print this message or the help of the given subcommand(s)

Usage: landscape help [COMMAND]...

Arguments:
  [COMMAND]...  Print help for the subcommand(s)
"

end Cartograph.Command
