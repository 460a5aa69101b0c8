import Cartograph.Json.Writer
import Cartograph.Settings.Basic

/-!
# Settings files

The text of a file that states all settings, one to a line and the items of a list on lines of their
own.
-/

namespace Cartograph

open Text

/-- The characters that stand for `c` in a quoted text. -/
def Settings.quotedChar (c : Char) : List Char :=
  if c = '\x7f' then "\\u007f".toList else Json.escape c

/-- A quoted text. -/
def Settings.quoted (s : String) : String :=
  "\"" ++ String.ofList (s.toList.flatMap quotedChar) ++ "\""

/-- The line of a key and its value. -/
def Settings.line (key value : String) : String :=
  key ++ " = " ++ value ++ "\n"

/-- A list with an item on every line. -/
def Settings.listValue (items : List String) : String :=
  if items.isEmpty then "[]"
  else "[\n" ++ String.join (items.map fun s => "    " ++ quoted s ++ ",\n") ++ "]"

/-- A word for yes or no. -/
def Settings.flagValue (flag : Bool) : String :=
  if flag then "true" else "false"

/-- A number. -/
def Settings.numberValue (n : UInt64) : String :=
  Decimal.ofNat n.toNat

/-- The text of a file that states the settings. -/
def Settings.document (settings : Settings) : String :=
  String.join [
    "[discovery]\n",
    line "skip_dirs" (listValue settings.discovery.skippedDirectories),
    line "skip_hidden_dirs" (flagValue settings.discovery.skipsHidden),
    line "binary_extensions" (listValue settings.discovery.binaryExtensions),
    line "respect_gitignore" (flagValue settings.discovery.heedsIgnoreFile),
    "\n[extraction]\n",
    line "generic_read_limit" (numberValue settings.extraction.readLimit),
    line "threads" (numberValue settings.extraction.workers)]

end Cartograph
