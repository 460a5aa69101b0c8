import Cartograph.Pattern

/-!
# What script files are searched for

The patterns by which declarations, imports and calls are found in the text of a script file.
-/

namespace Cartograph.Script

open Pattern Text

/-! ## Pieces -/

/-- A single or a double quote. -/
def isQuote (c : Char) : Bool :=
  c = '"' || c = '\''

/-- A quote, text that is captured and a quote; `least` characters at least. -/
def quoted (least : Nat) : Pattern :=
  one isQuote ++ capture (run least fun c => !isQuote c) ++ one isQuote

/-- A quoted word that is captured. -/
def quotedName : Pattern :=
  one isQuote ++ capture name ++ one isQuote

/-- What may stand in front of a declaration. -/
def exported : Pattern :=
  optional (text "export" ++ gap ++ optional (text "default" ++ gap))

/-- What may stand in front of an asynchronous function. -/
def asyncMark : Pattern :=
  text "async" ++ gap

/-! ## Declarations -/

/-- A request handler set up on an application: the verb and the path. -/
def route : Pattern :=
  oneOf ["app", "router", "server"] ++ blanks ++ text "." ++ blanks
    ++ capture (oneOf ["get", "post", "put", "patch", "delete", "all", "use", "head", "options"])
    ++ blanks ++ text "(" ++ blanks ++ quoted 0 ++ blanks

/-- A class: its name and what it extends. -/
def classDeclaration : Pattern :=
  exported ++ text "class" ++ gap ++ capture name
    ++ optional (gap ++ text "extends" ++ gap ++ capture name)

/-- A named function. -/
def functionDeclaration : Pattern :=
  exported ++ optional asyncMark ++ text "function" ++ gap ++ capture name

/-- What an arrow function takes, and the arrow. -/
def parametersAndArrow : Pattern :=
  orElse (text "(" ++ run 0 (· != ')') ++ text ")") name ++ blanks ++ text "=>"

/-- A name bound to an arrow function. A parameter may itself be called `async`. -/
def arrowDeclaration : Pattern :=
  exported ++ oneOf ["const", "let", "var"] ++ gap ++ capture name ++ blanks ++ text "=" ++ blanks
    ++ orElse (asyncMark ++ parametersAndArrow) parametersAndArrow

/-- The declarations of functions, in the order in which they are searched for. -/
def functionShapes : List Pattern :=
  [functionDeclaration, arrowDeclaration]

/-- The declarations of data models. -/
def modelShapes : List Pattern :=
  [text "mongoose.model" ++ blanks ++ text "(" ++ blanks ++ quotedName,
    text "sequelize.define" ++ blanks ++ text "(" ++ blanks ++ quotedName]

/-! ## Imports -/

/-- One name, all names or a list of names that an import binds. -/
def binding : Pattern :=
  firstOf [text "\x7b" ++ run 0 (· != '\x7d') ++ text "\x7d",
    text "*" ++ gap ++ text "as" ++ gap ++ name, name]

/-- An import of names from a module. -/
def importFrom : Pattern :=
  text "import" ++ gap ++ binding ++ many (blanks ++ text "," ++ blanks ++ binding) ++ gap
    ++ text "from" ++ gap ++ quoted 1

/-- A call that loads a module. -/
def loading (function : String) : Pattern :=
  text function ++ blanks ++ text "(" ++ blanks ++ quoted 1 ++ blanks ++ text ")"

/-- The ways to import a module. -/
def importShapes : List Pattern :=
  [importFrom, loading "require", loading "import"]

/-! ## Calls -/

/-- A call of one of some methods. One name may begin another. -/
def methodCall (methods : List String) : Pattern :=
  text "." ++ blanks ++ firstOf (methods.map fun m => text m ++ blanks ++ text "(")

/-- A request to another service. -/
def apiCall : Pattern :=
  oneOf ["fetch", "axios"] ++ blanks ++ one fun c => c = '.' || c = '('

/-- A call that reads a database. -/
def databaseRead : Pattern :=
  methodCall ["find", "findOne", "findMany", "findById", "findAll", "select", "where", "aggregate",
    "count", "countDocuments"]

/-- A call that writes a database. -/
def databaseWrite : Pattern :=
  methodCall ["save", "create", "insert", "insertOne", "insertMany", "update", "updateOne",
    "updateMany", "delete", "deleteOne", "deleteMany", "remove", "destroy", "bulkCreate", "upsert"]

/-- The construction of a router. -/
def routerSetUp : Pattern :=
  text "Router" ++ blanks ++ text "(" ++ blanks ++ text ")"

end Cartograph.Script
