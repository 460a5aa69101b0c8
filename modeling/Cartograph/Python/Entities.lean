import Cartograph.Extraction.Error
import Cartograph.Fragment
import Cartograph.Naming
import Cartograph.Python.Reader
import Cartograph.Python.Signals

/-!
# Entities of Python files

The part of a code graph that one Python file contributes: its classes with their endpoints, the
functions of the module, its imports, and marks for what it calls. A file that is not well-formed
contributes nothing.
-/

namespace Cartograph.Python

/-! ## Names in a tree -/

/-- The name at the end of a name or an attribute. -/
def endName? (t : Tree) : Option String :=
  match t.form with
  | .name text => some text
  | .attribute text => some text
  | _ => none

/-- The name by which a decorator is known: what it calls if it is a call, and itself otherwise. -/
def decoratorName? (decorator : Tree) : Option String := do
  let t ← decorator.parts.head?
  if t.form = .call then endName? (← t.parts.head?) else endName? t

/-- The names of some decorators. -/
def decoratorNames (decorators : List Tree) : List String :=
  decorators.filterMap decoratorName?

/-- The names of an attribute from the left, as far as they are names. -/
def chain : Tree → List String
  | .node (.name text) _ _ => [text]
  | .node (.attribute text) _ (object :: _) => chain object ++ [text]
  | .node (.attribute text) _ [] => [text]
  | _ => []

/-- The name of a base class. -/
def baseName? (t : Tree) : Option String :=
  match t.form with
  | .name text => some text
  | .attribute _ => some (Text.joinText '.' (chain t))
  | _ => none

/-- The names of the base classes of a class. -/
def baseNames (t : Tree) : List String :=
  match t.parts.find? fun part => part.form = .arguments with
  | some arguments => arguments.parts.filterMap baseName?
  | none => []

/-! ## Kinds -/

/-- One of the names is in the list. -/
def anyOf (names known : List String) : Bool :=
  names.any known.contains

/-- What a class is for. -/
def classKind (name : String) (bases : List String) : NodeKind :=
  if anyOf bases Signals.modelBases then .model
  else if Signals.routers.contains name || anyOf bases Signals.routers then .router
  else (Naming.kindOf? Naming.pythonClasses name).getD .class

/-- What a function of a module is for. -/
def functionKind (name : String) (decorators : List String) : NodeKind :=
  if anyOf decorators Signals.endpointDecorators then .endpoint
  else if anyOf decorators Signals.taskDecorators then .task
  else if Text.holds (Text.lower name) "middleware" then .middleware
  else .function

/-- The method of the requests that an endpoint answers. -/
def requestMethod (decorators : List String) : String :=
  match (decorators.map Text.lower).find? Signals.requestMethods.contains with
  | some method => Text.asciiUppercase method
  | none => Signals.usualMethod

/-- Strings as a JSON array. -/
def stringList (items : List String) : Json :=
  .arr (items.map .str)

/-! ## Classes -/

/-- The names of the base classes of a class that say something. -/
def namedBases (t : Tree) : List String :=
  (baseNames t).filter fun base => !Signals.ignoredBases.contains base

/-- The node of a class. -/
def classNode (file : SourceFile) (name : String) (visit : Tree.Visit) : Node :=
  let bases := baseNames visit.tree
  let node : Node :=
    { id := classId file.path name
      label := name
      kind := classKind name bases
      path := file.path
      line := UInt32.ofNat visit.tree.line }
  (node.note "bases" (stringList bases)).note "decorators"
    (stringList (decoratorNames visit.decorators))

/-- The node of an endpoint that is a method of a class. -/
def methodNode (file : SourceFile) (className name : String) (visit : Tree.Visit) : Node :=
  let label := className ++ "." ++ name
  let node : Node :=
    { id := endpointId file.path label
      label
      kind := .endpoint
      path := file.path
      line := UInt32.ofNat visit.tree.line }
  node.note "method" (.str (requestMethod (decoratorNames visit.decorators)))

/-- Adds a method of a class if it is an endpoint. -/
def addMethod (file : SourceFile) (className : String) (g : Graph) (visit : Tree.Visit) : Graph :=
  match visit.tree.form with
  | .functionDef name _ =>
    if anyOf (decoratorNames visit.decorators) Signals.endpointDecorators then
      let node := methodNode file className name visit
      (g.addNode node).addEdge
        { source := classId file.path className, target := node.id, kind := .endpointHandler }
    else g
  | _ => g

/-- Adds a class, its base classes and its endpoints. -/
def addClass (file : SourceFile) (g : Graph) (visit : Tree.Visit) : Graph :=
  match visit.tree.form with
  | .classDef name =>
    let g := g.addOwned file .uses (classNode file name visit)
    let g := (namedBases visit.tree).foldl (Graph.addBase (classId file.path name)) g
    (visit.tree.visits []).foldl (addMethod file name) g
  | _ => g

/-! ## Functions -/

/-- The functions that stand in the module itself, with their decorators. -/
def moduleFunctions (t : Tree) : List Tree.Visit :=
  t.parts.filterMap fun part =>
    match part.form with
    | .functionDef _ _ => some ⟨[], part⟩
    | .decorated =>
      (part.parts.find? fun p => match p.form with | .functionDef _ _ => true | _ => false).map
        fun p => ⟨Tree.decoratorsOf part.parts, p⟩
    | _ => none

/-- The node of a function of the module. -/
def functionNode (file : SourceFile) (name : String) (isAsync : Bool) (visit : Tree.Visit) :
    Node :=
  let decorators := decoratorNames visit.decorators
  let node : Node :=
    { id := functionId file.path name
      label := name
      kind := functionKind name decorators
      path := file.path
      line := UInt32.ofNat visit.tree.line }
  (node.note "decorators" (stringList decorators)).note "is_async" (.bool isAsync)

/-- Adds a function of the module. -/
def addFunction (file : SourceFile) (g : Graph) (visit : Tree.Visit) : Graph :=
  match visit.tree.form with
  | .functionDef name isAsync =>
    let node := functionNode file name isAsync visit
    let g := g.addOwned file .uses node
    if node.kind = .endpoint then
      g.addEdge { source := file.id, target := node.id, kind := .endpointHandler }
    else g
  | _ => g

/-! ## Imports and calls -/

/-- The modules that a statement imports. -/
def importedModules (t : Tree) : List String :=
  match t.form with
  | .importModules names => names
  | .importFrom (some name) => [name]
  | .importFuture => ["__future__"]
  | _ => []

/-- What a method call does to a database. -/
def databaseUse? (method : String) : Option EdgeKind :=
  if Signals.databaseReads.contains method then some .dbRead
  else if Signals.databaseWrites.contains method then some .dbWrite
  else none

/-- The marks that the call of a method leaves. -/
def methodMarks (file : SourceFile) (object method : String) : List Edge :=
  let database :=
    match databaseUse? method with
    | some kind =>
      [((Edge.marker file.id kind).note "method" (.str method)).note "object" (.str object)]
    | none => []
  let request :=
    if Signals.requestModules.contains object && Signals.requestFunctions.contains method then
      [((Edge.marker file.id .apiCall).note "method" (.str method)).note "module" (.str object)]
    else []
  database ++ request

/-- The name that a method is called on; empty if it is no name. -/
def objectName (callee : Tree) : String :=
  match callee.parts.head? with
  | some object => match object.form with | .name text => text | _ => ""
  | none => ""

/-- The marks that a call leaves. -/
def callMarks (file : SourceFile) (t : Tree) : List Edge :=
  match t.parts.head? with
  | some callee =>
    match callee.form with
    | .attribute method => methodMarks file (objectName callee) method
    | .name function =>
      if Signals.fetchFunctions.contains function then
        [(Edge.marker file.id .apiCall).note "function" (.str function)]
      else []
    | _ => []
  | none => []

/-! ## Files -/

/-- The trees of one form on a walk. -/
def treesWhere (wanted : Form → Bool) (visits : List Tree.Visit) : List Tree :=
  (visits.filter fun visit => wanted visit.tree.form).map (·.tree)

/-- What the statements of a file import, in order. -/
def imports (tree : Tree) : List String :=
  (tree.visits []).flatMap fun visit => importedModules visit.tree

/-- The marks that the calls in a file leave. -/
def marks (file : SourceFile) (tree : Tree) : List Edge :=
  (treesWhere (· = .call) (tree.visits [])).flatMap (callMarks file)

/-- What a well-formed file contributes. -/
def fragmentOf (file : SourceFile) (tree : Tree) : Graph :=
  let g := file.bareFragment
  let g := (tree.visits []).foldl (addClass file) g
  let g := (moduleFunctions tree).foldl (addFunction file) g
  let g := (imports tree).foldl (Graph.addImport file) g
  (marks file tree).foldl Graph.addEdgeDeferred g

/-- What a file with this text contributes. -/
def fragment (file : SourceFile) (text : List Char) : Except ExtractionError Graph :=
  let tree := Tree.ofText text
  if tree.hasFault then .error (.malformed file.path ((tree.firstFault?).getD 0))
  else .ok (fragmentOf file tree)

end Cartograph.Python
