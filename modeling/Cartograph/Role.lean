import Cartograph.FilePath
import Cartograph.Graph.Kind
import Cartograph.Text.Case

/-!
# Roles of files

What a file is for, told from its name and from the directories above it. Tests come before
configuration, configuration before the roles that directories confer, and those have an order of
their own. Letter case does not matter.
-/

namespace Cartograph.Role

/-! ## Tables -/

/-- Directories of tests. -/
def testDirectories : List String :=
  ["test", "tests", "spec", "specs", "__tests__", "test_", "_test"]

/-- Names of configuration files, whole or without extension. -/
def configNames : List String :=
  ["config", "settings", "configuration", ".env", "env", "webpack", "babel", "eslint", "prettier",
    "tsconfig", "jest", "karma", "rollup", "vite", "next.config", "pyproject", "setup.cfg", "tox",
    "mypy", "flake8", "docker-compose", "dockerfile", "makefile", "cmake", "package.json",
    "cargo.toml", "go.mod", "gemfile", "pipfile", "poetry", "requirements"]

/-- Extensions of configuration files. -/
def configExtensions : List String :=
  ["json", "yaml", "yml", "toml", "ini", "cfg", "env", "conf", "xml", "properties"]

/-- The roles that directories confer on what is below them, the strongest first. -/
def directoryRoles : List (NodeKind × List String) :=
  [(.endpoint, ["routes", "api", "endpoints", "views", "controllers"]),
    (.model, ["models", "entities", "schemas"]),
    (.service, ["services", "providers", "managers"]),
    (.utility, ["utils", "utilities", "helpers", "lib", "common", "shared"]),
    (.middleware, ["middleware", "middlewares"])]

/-! ## Decisions -/

/-- The names of the directories above a file, in lowercase. -/
def directoriesAbove (path : String) : List String :=
  (Text.splitText '/' path).dropLast.map Text.lower

/-- A lowercase name without its extension. -/
def stemOf (name : String) : String :=
  ((FilePath.stem? name).map RawText.shown).getD name

/-- An extension in lowercase, without leading dots. -/
def plainExtension (extension : String) : String :=
  Text.lower (String.ofList (extension.toList.dropWhile (· = '.')))

/-- A test by its directories or by its name. -/
def isTest (directories : List String) (stem : String) : Bool :=
  directories.any testDirectories.contains || Text.holds stem "test" || Text.holds stem "spec"

/-- A configuration file by its name or its extension. -/
def isConfig (name stem extension : String) : Bool :=
  configNames.contains stem || configNames.contains name || configExtensions.contains extension

/-- The strongest role that one of the directories confers. -/
def conferred? (directories : List String) : Option NodeKind :=
  (directoryRoles.find? fun role => directories.any role.2.contains).map (·.1)

/-- The role of the file `name` at `path`. -/
def classify (path name extension : String) : NodeKind :=
  let directories := directoriesAbove path
  let name := Text.lower name
  let stem := stemOf name
  if isTest directories stem then .test
  else if isConfig name stem (plainExtension extension) then .config
  else (conferred? directories).getD .file

end Cartograph.Role
