/-!
# Kinds of nodes and edges

Every node of a code graph has one kind and so has every edge. The order of the constructors is the
order of the legend. Each kind has a name, used wherever a graph is written, and a legend color.
-/

namespace Cartograph

/-! ## Nodes -/

/-- What a node stands for. -/
inductive NodeKind where
  | endpoint
  | file
  | «class»
  | function
  | router
  | model
  | service
  | utility
  | middleware
  | task
  | config
  | test
  | component
  | module
  deriving DecidableEq, Hashable, Inhabited, Repr

namespace NodeKind

/-- All kinds in the order of the legend. -/
def all : List NodeKind :=
  [.endpoint, .file, .class, .function, .router, .model, .service, .utility, .middleware, .task,
    .config, .test, .component, .module]

/-- The name of a kind. -/
def name : NodeKind → String
  | .endpoint => "endpoint"
  | .file => "file"
  | .class => "class"
  | .function => "function"
  | .router => "router"
  | .model => "model"
  | .service => "service"
  | .utility => "utility"
  | .middleware => "middleware"
  | .task => "task"
  | .config => "config"
  | .test => "test"
  | .component => "component"
  | .module => "module"

/-- The legend color of a kind. -/
def color : NodeKind → String
  | .endpoint => "#00bcd4"
  | .file => "#66bb6a"
  | .class => "#ffa726"
  | .function => "#42a5f5"
  | .router => "#ef5350"
  | .model => "#ec407a"
  | .service => "#26a69a"
  | .utility => "#78909c"
  | .middleware => "#ab47bc"
  | .task => "#ff7043"
  | .config => "#8d6e63"
  | .test => "#9ccc65"
  | .component => "#29b6f6"
  | .module => "#d4e157"

/-- The kind with a given name. -/
def ofName? (text : String) : Option NodeKind :=
  all.find? fun kind => kind.name = text

/-- No kind is missing from the legend. -/
theorem mem_all (kind : NodeKind) : kind ∈ all := by
  cases kind <;> decide

/-- A name leads back to its kind. -/
theorem ofName?_name (kind : NodeKind) : ofName? kind.name = some kind := by
  cases kind <;> decide

end NodeKind

/-! ## Edges -/

/-- What an edge says about its two ends. -/
inductive EdgeKind where
  | imports
  | calls
  | inherits
  | endpointHandler
  | dbRead
  | dbWrite
  | apiCall
  | uses
  | middlewareChain
  deriving DecidableEq, Hashable, Inhabited, Repr

namespace EdgeKind

/-- All kinds in the order of the legend. -/
def all : List EdgeKind :=
  [.imports, .calls, .inherits, .endpointHandler, .dbRead, .dbWrite, .apiCall, .uses,
    .middlewareChain]

/-- The name of a kind. -/
def name : EdgeKind → String
  | .imports => "imports"
  | .calls => "calls"
  | .inherits => "inherits"
  | .endpointHandler => "endpoint_handler"
  | .dbRead => "db_read"
  | .dbWrite => "db_write"
  | .apiCall => "api_call"
  | .uses => "uses"
  | .middlewareChain => "middleware_chain"

/-- The legend color of a kind. -/
def color : EdgeKind → String
  | .imports => "#4fc3f7"
  | .calls => "#81c784"
  | .inherits => "#ffb74d"
  | .endpointHandler => "#e57373"
  | .dbRead => "#4dd0e1"
  | .dbWrite => "#f06292"
  | .apiCall => "#aed581"
  | .uses => "#90a4ae"
  | .middlewareChain => "#ce93d8"

/-- The kind with a given name. -/
def ofName? (text : String) : Option EdgeKind :=
  all.find? fun kind => kind.name = text

/-- No kind is missing from the legend. -/
theorem mem_all (kind : EdgeKind) : kind ∈ all := by
  cases kind <;> decide

/-- A name leads back to its kind. -/
theorem ofName?_name (kind : EdgeKind) : ofName? kind.name = some kind := by
  cases kind <;> decide

end EdgeKind

end Cartograph
