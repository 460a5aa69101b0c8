import Cartograph.FilePath
import Cartograph.FileTree.Path
import Cartograph.Settings.Codec
import Cartograph.Text.Blank
import Cartograph.Toml.Reader

/-!
# Where settings come from

Settings are read from a file of the project or, where there is none, from a file of the user.
Variables of the environment override single settings. The first variable with a value that cannot
be used is reported.
-/

namespace Cartograph

open Text

/-! ## Environment -/

/-- The variables of the environment. -/
abbrev Environment := List (String × RawText)

/-- The bytes of a variable. -/
def Environment.raw? (env : Environment) (name : String) : Option RawText :=
  (env.find? fun entry => entry.1 = name).map (·.2)

/-- The value of a variable. A variable whose bytes are no text counts as not set. -/
def Environment.get? (env : Environment) (name : String) : Option String :=
  (env.raw? name).bind RawText.text?

/-- The home directory of the user. -/
def Environment.home? (env : Environment) : Option RawText :=
  (env.raw? "HOME").filter fun home => !home.isEmpty

/-- The directory in which programs keep the settings of the user. -/
def Environment.configDirectory? (env : Environment) : Option RawText :=
  match (env.raw? "XDG_CONFIG_HOME").filter FilePath.isAbsolute with
  | some directory => some directory
  | none => env.home?.map fun home => FilePath.join home ".config"

/-! ## Errors -/

/-- Why there are no settings. -/
inductive SettingsError where
  | unreadable (cause : FileError)
  | malformed
  /-- The variable called `name` has a value that cannot be used. -/
  | invalid (name value : String)
  deriving DecidableEq, Inhabited, Repr

/-- What a reader is told. -/
def SettingsError.message : SettingsError → String
  | .unreadable cause => "Failed to read config file: " ++ cause.message
  | .malformed => "Failed to parse config file:"
  | .invalid name value => "Invalid configuration: " ++ name ++ "=" ++ value

/-! ## Values of variables -/

/-- A number that fits an unsigned 64-bit word. -/
def wordOf? (raw : String) : Option UInt64 :=
  (Decimal.below? UInt64.size raw).map UInt64.ofNat

/-- The words for yes. -/
def yesWords : List String :=
  ["1", "true", "yes", "on"]

/-- The words for no. -/
def noWords : List String :=
  ["0", "false", "no", "off"]

/-- A word for yes or no, whatever its letter case and the white space around it. -/
def flagOf? (raw : String) : Option Bool :=
  let word := asciiLowercase (trim raw)
  if yesWords.contains word then some true
  else if noWords.contains word then some false
  else none

/-! ## Overriding -/

/-- The variable that overrides the read limit. -/
def readLimitVariable : String :=
  "LANDSCAPE_READ_LIMIT"

/-- The variable that overrides the number of workers. -/
def workersVariable : String :=
  "LANDSCAPE_THREADS"

/-- The variable that decides whether the ignore file counts. -/
def heedsVariable : String :=
  "LANDSCAPE_RESPECT_GITIGNORE"

/-- Overrides one setting if its variable is set. -/
def Settings.override {α : Type} (env : Environment) (name : String)
    (read : String → Option α) (set : Settings → α → Settings) (settings : Settings) :
    Except SettingsError Settings :=
  match env.get? name with
  | none => .ok settings
  | some raw =>
    match read raw with
    | some value => .ok (set settings value)
    | none => .error (.invalid name raw)

/-- The settings with the read limit changed. -/
def Settings.withReadLimit (settings : Settings) (limit : UInt64) : Settings :=
  { settings with extraction := { settings.extraction with readLimit := limit } }

/-- The settings with the number of workers changed. -/
def Settings.withWorkers (settings : Settings) (workers : UInt64) : Settings :=
  { settings with extraction := { settings.extraction with workers } }

/-- The settings that heed the ignore file or do not. -/
def Settings.withHeeding (settings : Settings) (heeds : Bool) : Settings :=
  { settings with discovery := { settings.discovery with heedsIgnoreFile := heeds } }

/-- The settings with everything overridden for which there is a variable. -/
def Settings.overridden (env : Environment) (settings : Settings) :
    Except SettingsError Settings := do
  let settings ← settings.override env readLimitVariable wordOf? withReadLimit
  let settings ← settings.override env workersVariable wordOf? withWorkers
  settings.override env heedsVariable flagOf? withHeeding

/-! ## Files -/

/-- The settings that a text states. -/
def Settings.ofText? (text : List Char) : Option Settings :=
  (Toml.read? text).bind fun document => Settings.ofJson? true document.toJson

/-- The settings that a file states, overridden by the environment. -/
def Settings.ofFile (tree : FileTree) (here : Place) (env : Environment) (path : RawText) :
    Except SettingsError Settings :=
  match tree.readText here path with
  | .error cause => .error (.unreadable cause)
  | .ok text =>
    match Settings.ofText? text with
    | some settings => settings.overridden env
    | none => .error .malformed

/-- The name of the file of a project. -/
def projectFile : String :=
  "landscape.toml"

/-- The path of the file of the user. -/
def userFile? (env : Environment) : Option RawText :=
  env.configDirectory?.map fun directory => FilePath.join directory "landscape/config.toml"

/-- The file from which settings are read, if there is one. -/
def settingsFile? (tree : FileTree) (here : Place) (env : Environment) : Option RawText :=
  if tree.existsAt here projectFile then some projectFile
  else (userFile? env).filter (tree.existsAt here)

/-- The settings for work in the directory `here`. -/
def Settings.load (tree : FileTree) (here : Place) (env : Environment) :
    Except SettingsError Settings :=
  match settingsFile? tree here env with
  | some path => Settings.ofFile tree here env path
  | none => ({} : Settings).overridden env

end Cartograph
