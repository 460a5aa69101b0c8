import Cartograph.Fragment
import Cartograph.Naming
import Cartograph.Script.Patterns
import Cartograph.Text.Case
import Cartograph.Text.Sorted

/-!
# Entities of script files

The part of a code graph that one script file contributes. The text is searched for patterns, so
every file contributes something: its routes, its classes and functions, the data models and the
imports, and marks for requests, database use and a router.
-/

namespace Cartograph.Script

open Pattern

/-! ## Routes -/

/-- The verb that puts a middleware in front of other routes. -/
def mountVerb : String :=
  "use"

/-- The node of a route. -/
def routeNode (file : SourceFile) (line : Nat) (verb path : String) : Node :=
  let method := Text.asciiUppercase verb
  let node : Node :=
    { id := endpointId file.path (method ++ ":" ++ path)
      label := if path.isEmpty then method ++ " (middleware)" else method ++ " " ++ path
      kind := if verb = mountVerb then .middleware else .endpoint
      path := file.path
      line := UInt32.ofNat line }
  (node.note "method" (.str method)).note "path" (.str path)

/-- Adds a route. -/
def addRoute (file : SourceFile) (g : Graph) (found : Occurrence) : Graph :=
  match found.captures with
  | verb :: path :: _ =>
    g.addOwned file .endpointHandler (routeNode file found.line verb path)
  | _ => g

/-! ## Classes -/

/-- The node of a class. -/
def classNode (file : SourceFile) (line : Nat) (name : String) (base : Option String) : Node :=
  let node : Node :=
    { id := classId file.path name
      label := name
      kind := (Naming.kindOf? Naming.scriptClasses name).getD .class
      path := file.path
      line := UInt32.ofNat line }
  node.note "extends" (base.elim .null .str)

/-- Adds a class. -/
def addClass (file : SourceFile) (g : Graph) (found : Occurrence) : Graph :=
  match found.captures with
  | name :: rest =>
    let g := g.addOwned file .uses (classNode file found.line name rest.head?)
    rest.head?.toList.foldl (Graph.addBase (classId file.path name)) g
  | [] => g

/-! ## Functions -/

/-- The extensions of files whose capitalized functions are components. -/
def componentExtensions : List String :=
  ["jsx", "tsx"]

/-- The text begins with an uppercase letter. -/
def isCapitalized (s : String) : Bool :=
  s.toList.head?.any Text.isUppercase

/-- What a function is for. -/
def functionKind (file : SourceFile) (name : String) : NodeKind :=
  match Naming.kindOf? Naming.scriptFunctions name with
  | some kind => kind
  | none =>
    if componentExtensions.contains file.extension && isCapitalized name then .component
    else .function

/-- Keeps the finds whose name is not taken, each name once. -/
def unclaimed (taken : Std.HashSet String) : List (Nat × String) → List (Nat × String)
  | [] => []
  | (line, name) :: rest =>
    if taken.contains name then unclaimed taken rest
    else (line, name) :: unclaimed (taken.insert name) rest

/-- The functions of a text by their lines and names; a name that a class has is taken. -/
def functions (text : List Char) : List (Nat × String) :=
  let classNames := (classDeclaration.occurrences text).filterMap fun found => found.captures.head?
  unclaimed (Std.HashSet.ofList classNames)
    (functionShapes.flatMap fun shape => shape.firstCaptures text)

/-- The node of a function. -/
def functionNode (file : SourceFile) (line : Nat) (name : String) : Node where
  id := functionId file.path name
  label := name
  kind := functionKind file name
  path := file.path
  line := UInt32.ofNat line

/-- Adds a function. -/
def addFunction (file : SourceFile) (g : Graph) (found : Nat × String) : Graph :=
  g.addOwned file .uses (functionNode file found.1 found.2)

/-! ## Models, imports and marks -/

/-- The data models of a text by their lines and names. -/
def models (text : List Char) : List (Nat × String) :=
  modelShapes.flatMap fun shape => shape.firstCaptures text

/-- The node of a data model. -/
def modelNode (file : SourceFile) (line : Nat) (name : String) : Node where
  id := modelId file.path name
  label := name
  kind := .model
  path := file.path
  line := UInt32.ofNat line

/-- Adds a data model. -/
def addModel (file : SourceFile) (g : Graph) (found : Nat × String) : Graph :=
  g.addOwned file .uses (modelNode file found.1 found.2)

/-- The modules that a text imports, in order and each once. -/
def importedModules (text : List Char) : List String :=
  Text.sorted (importShapes.flatMap fun shape => (shape.firstCaptures text).map (·.2))

/-- The marks that a text leaves on its file, one of a kind. -/
def marks (text : List Char) : List EdgeKind :=
  ([(apiCall, .apiCall), (databaseRead, .dbRead), (databaseWrite, .dbWrite)].filter
    fun entry => entry.1.occursIn text).map (·.2)

/-- Adds a mark. -/
def addMark (file : SourceFile) (g : Graph) (kind : EdgeKind) : Graph :=
  g.addEdgeDeferred (Edge.marker file.id kind)

/-- The node of the router that a file sets up. -/
def routerNode (file : SourceFile) : Node :=
  { id := routerId file.path
    label := ((FilePath.stem? file.path).map RawText.shown).getD "" ++ " (router)"
    kind := .router
    path := file.path }

/-! ## Files -/

/-- What a file with this text contributes. -/
def fragment (file : SourceFile) (text : List Char) : Graph :=
  let g := file.bareFragment
  let g := (route.occurrences text).foldl (addRoute file) g
  let g := (classDeclaration.occurrences text).foldl (addClass file) g
  let g := (functions text).foldl (addFunction file) g
  let g := (models text).foldl (addModel file) g
  let g := (importedModules text).foldl (Graph.addImport file) g
  let g := (marks text).foldl (addMark file) g
  if routerSetUp.occursIn text then g.addOwned file .uses (routerNode file) else g

end Cartograph.Script
