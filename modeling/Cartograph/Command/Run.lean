import Cartograph.Analysis
import Cartograph.Command.Invocation
import Cartograph.Graph.Codec
import Cartograph.Json.Writer
import Cartograph.Settings.Document
import Cartograph.Settings.Layers
import Cartograph.Text.Decimal

/-!
# Running commands

What a command does: the text that it prints, the notes for the user, the code that it ends with and
the file that it writes, if it writes one. A command that fails before it writes leaves all files as
they were. A file that has been opened is not closed up again: when its bytes or the word about it
cannot be passed on, the command fails and what is in the file stays there.
-/

namespace Cartograph.Command

open Text

/-! ## Outcomes -/

/-- What a command has done. -/
structure Outcome where
  /-- Zero for success, one for a failure, two for a wrong command line and 101 when the user cannot
  be told what there is to tell. -/
  code : Nat
  /-- What is printed. -/
  printed : String := ""
  /-- What the user is told besides. -/
  notes : String := ""
  /-- Why the command failed, from what it meant to do to what went wrong. -/
  causes : List String := []
  /-- The files after the command. -/
  tree : FileTree

/-- A command that failed. -/
def Outcome.failed (tree : FileTree) (causes : List String) : Outcome :=
  { code := 1, causes, tree }

/-- A wrong command line. -/
def Outcome.refused (tree : FileTree) : Outcome :=
  { code := 2, tree }

/-- A command that could not tell the user something. -/
def Outcome.broken (tree : FileTree) : Outcome :=
  { code := 101, tree }

/-- Ends with a text that is printed. -/
def printing (host : Host) (text : String) (tree : FileTree) : Outcome :=
  if host.printFails text then .broken tree else { code := 0, printed := text, tree }

/-- Ends with a note for the user. -/
def noting (host : Host) (text : String) (tree : FileTree) : Outcome :=
  if host.noteFails text then .broken tree else { code := 0, notes := text, tree }

/-! ## Causes -/

/-- Why there are no settings, from the outside in. -/
def settingsCauses (error : SettingsError) : List String :=
  match error with
  | .unreadable cause => [error.message, cause.message]
  | _ => [error.message]

/-! ## Analyses -/

/-- The text of a report. -/
def reportText (report : Report) (compact : Bool) : String :=
  if compact then report.toJson.compact else report.toJson.pretty

/-- What the user is told of a report that went into a file. -/
def writtenNote (report : Report) (path : RawText) : String :=
  "Wrote " ++ Decimal.ofNat report.totals.nodes ++ " nodes and " ++
    Decimal.ofNat report.totals.edges ++ " edges to " ++ path.shown ++ "\n"

/-- Writes the text of a file and goes on, or fails. -/
def writing (host : Host) (tree : FileTree) (here : Place) (path : RawText) (text : String)
    (outcome : FileTree → Outcome) : Outcome :=
  let written := tree.write host.writeFault? here path (Utf8.encode text)
  match written.fault? with
  | none => outcome written.tree
  | some cause => .failed written.tree ["Failed to write " ++ path.shown, cause.message]

/-- Prints a report or writes it into a file. -/
def deliver (host : Host) (tree : FileTree) (here : Place) (output : Option RawText)
    (compact : Bool) (report : Report) : Outcome :=
  match output with
  | none => printing host (reportText report compact ++ "\n") tree
  | some path =>
    writing host tree here path (reportText report compact) (noting host (writtenNote report path))

/-- Analyzes a repository. -/
def runAnalyze (host : Host) (tree : FileTree) (here : Place) (env : Environment) (path : RawText)
    (output : Option RawText) (compact : Bool) : Outcome :=
  match Settings.load tree here env with
  | .error e => .failed tree (settingsCauses e)
  | .ok settings =>
    match analyze host tree settings here path with
    | .error e => .failed tree (("Failed to analyze " ++ path.shown) :: e.causes)
    | .ok report => deliver host tree here output compact report

/-! ## Settings files -/

/-- Writes a file with all settings. -/
def runInit (host : Host) (tree : FileTree) (here : Place) (force : Bool) : Outcome :=
  if tree.existsAt here projectFile && !force then
    .failed tree [projectFile ++ " already exists (use --force to overwrite)"]
  else
    writing host tree here projectFile ({} : Settings).document
      (printing host ("Created " ++ projectFile ++ "\n"))

/-! ## All commands -/

/-- What comes of a command line. -/
inductive Result where
  | ended (outcome : Outcome)
  /-- Analyses are served at a port until the program is stopped. -/
  | serving (port : UInt16) (settings : Settings)

/-- Starts serving. -/
def runServe (tree : FileTree) (here : Place) (env : Environment) (port : UInt16) : Result :=
  match Settings.load tree here env with
  | .error e => .ended (.failed tree (settingsCauses e))
  | .ok settings => .serving port settings

/-- What is asked for. Whether a text that helps can be printed does not matter. -/
def Invocation.run (host : Host) (tree : FileTree) (here : Place) (env : Environment) :
    Invocation → Result
  | .analyze path output compact => .ended (runAnalyze host tree here env path output compact)
  | .init force => .ended (runInit host tree here force)
  | .serve port => runServe tree here env port
  | .help topic => .ended { code := 0, printed := topic.text, tree }

/-- What the arguments of a command line ask for. -/
def run (host : Host) (tree : FileTree) (here : Place) (env : Environment)
    (arguments : List RawText) : Result :=
  match Invocation.ofArguments? arguments with
  | some invocation => invocation.run host tree here env
  | none => .ended (.refused tree)

end Cartograph.Command
