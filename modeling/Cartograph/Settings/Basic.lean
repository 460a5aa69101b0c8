import Cartograph.Text.Case
import Cartograph.Text.Split

/-!
# Settings

What a user may choose: which directories and files are passed over, how much of a file is read and
how many workers read files. Every setting has a default.
-/

namespace Cartograph

/-! ## Finding files -/

/-- Names of directories that are passed over. A name that begins with a star stands for every name
with the rest as its end. -/
def usualSkippedDirectories : List String :=
  [".git", ".hg", ".svn", "__pycache__", ".tox", ".mypy_cache", ".pytest_cache", ".ruff_cache",
    ".eggs", "*.egg-info", ".venv", "venv", "env", ".env", "node_modules", "dist", "build",
    "coverage", ".next", ".nuxt", ".idea", ".vscode", ".cursor"]

/-- Extensions of files that hold no text. -/
def usualBinaryExtensions : List String :=
  ["png", "jpg", "jpeg", "gif", "bmp", "ico", "svg", "woff", "woff2", "ttf", "eot", "zip", "tar",
    "gz", "bz2", "rar", "7z", "exe", "dll", "so", "dylib", "pyc", "pyo", "class", "pdf", "doc",
    "docx", "xls", "xlsx", "mp3", "mp4", "avi", "mov", "wav", "db", "sqlite", "sqlite3", "lock"]

/-- Which files of a repository are looked at. -/
structure DiscoverySettings where
  /-- Directories that are passed over, by name. -/
  skippedDirectories : List String := usualSkippedDirectories
  /-- Directories whose name begins with a dot are passed over. -/
  skipsHidden : Bool := true
  /-- Extensions of files that are passed over. -/
  binaryExtensions : List String := usualBinaryExtensions
  /-- The ignore file of the repository counts. -/
  heedsIgnoreFile : Bool := true
  deriving BEq, DecidableEq, Inhabited, Repr

namespace DiscoverySettings

/-- A name fits an entry of the list of directories that are passed over. -/
def fitsEntry (name entry : String) : Bool :=
  match Text.stripStart? entry "*" with
  | some ending => Text.endsIn name ending
  | none => entry = name

/-- A directory with this name is passed over. -/
def skipsDirectory (settings : DiscoverySettings) (name : String) : Bool :=
  (settings.skipsHidden && Text.startsWith name ".")
    || settings.skippedDirectories.any (fitsEntry name)

/-- A file with this extension is passed over. Only the case of ASCII letters does not matter. -/
def isBinary (settings : DiscoverySettings) (extension : String) : Bool :=
  settings.binaryExtensions.any fun entry =>
    Text.asciiLowercase entry = Text.asciiLowercase extension

end DiscoverySettings

/-! ## Looking into files -/

/-- How files are looked into. -/
structure ExtractionSettings where
  /-- How many bytes are read of a file of no particular language. -/
  readLimit : UInt64 := 50000
  /-- How many workers look into files; zero for as many as the machine has to offer. -/
  workers : UInt64 := 0
  deriving BEq, DecidableEq, Inhabited, Repr

/-! ## All settings -/

/-- All settings. -/
structure Settings where
  discovery : DiscoverySettings := {}
  extraction : ExtractionSettings := {}
  deriving BEq, DecidableEq, Inhabited, Repr

end Cartograph
