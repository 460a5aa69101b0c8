import Cartograph.Proofs.Fragment.Closed
import Cartograph.Proofs.Graph.Runs

/-!
# Calls of the extractors

An extractor builds its fragment call by call: it inserts a node, an edge that is checked, or an edge
that is not. The graph does not tell afterwards if a checked edge was refused, so here are the calls
themselves, in their order. That they are those of the extractors is shown for every graph that they
may begin with, also for graphs in which edges are refused. Main statement: the fragment of a file is
closed, and none of its checked edges was refused (`fragment_closed`).
-/

namespace Cartograph

/-! ## Runs of calls -/

namespace Graph

/-- The graph after some calls. -/
def insertAll (g : Graph) (calls : List Insertion) : Graph :=
  calls.foldl insert g

@[simp] theorem insertAll_cons (g : Graph) (call : Insertion) (calls : List Insertion) :
    g.insertAll (call :: calls) = (g.insert call).insertAll calls := rfl

theorem insertAll_append (g : Graph) (first second : List Insertion) :
    g.insertAll (first ++ second) = (g.insertAll first).insertAll second :=
  List.foldl_append

/-- None of the calls is refused: where an edge is checked both of its ends are there. -/
def Accepts (g : Graph) (calls : List Insertion) : Prop :=
  ∀ before edge after, calls = before ++ .edge edge :: after →
    (g.insertAll before).holdsEnds edge = true

/-- A call takes no identifier away. -/
theorem contains_insert {g : Graph} {id : String} (h : g.contains id = true)
    (call : Insertion) : (g.insert call).contains id = true := by
  cases call with
  | node node => rw [insert, contains_addNode, h, Bool.true_or]
  | edge edge =>
      rw [insert, addEdge]
      split
      · exact h
      · exact h
  | deferredEdge edge => exact h
  | graph other =>
      rw [insert, merge_eq]
      exact List.foldlRecOn other.nodes.toList addNode (motive := fun g => g.contains id = true) h
        fun g held node _ => by rw [contains_addNode, held, Bool.true_or]

theorem contains_insertAll {g : Graph} {id : String} (h : g.contains id = true)
    (calls : List Insertion) : (g.insertAll calls).contains id = true :=
  List.foldlRecOn calls insert (motive := fun g => g.contains id = true) h
    fun _ held call _ => contains_insert held call

/-! ### Calls that are not refused -/

theorem accepts_nil (g : Graph) : g.Accepts [] := by
  intro before edge after h
  cases before <;> cases h

/-- **One more call in front** is not refused, and the others are not refused behind it. -/
theorem accepts_cons_iff {g : Graph} {call : Insertion} {calls : List Insertion} :
    g.Accepts (call :: calls) ↔
      (∀ edge, call = .edge edge → g.holdsEnds edge = true) ∧ (g.insert call).Accepts calls := by
  constructor
  · refine fun h => ⟨fun edge heq => ?_, fun before edge after heq => ?_⟩
    · exact h [] edge calls (by rw [heq, List.nil_append])
    · exact h (call :: before) edge after (by rw [heq, List.cons_append])
  · rintro ⟨hcall, hcalls⟩ before edge after heq
    cases before with
    | nil => exact hcall edge (List.cons.inj heq).1
    | cons first before =>
        obtain ⟨rfl, hrest⟩ := List.cons.inj heq
        exact hcalls before edge after hrest

theorem accepts_append {g : Graph} {first second : List Insertion} (h : g.Accepts first)
    (hsecond : (g.insertAll first).Accepts second) : g.Accepts (first ++ second) := by
  induction first generalizing g with
  | nil => exact hsecond
  | cons call first ih =>
      rw [accepts_cons_iff] at h
      rw [List.cons_append, accepts_cons_iff]
      exact ⟨h.1, ih h.2 hsecond⟩

/-- **A loop makes no call that is refused** if none of its rounds does. The rounds may rely on a
node that is there from the start. -/
theorem accepts_flatMap {α : Type} {id : String} {calls : α → List Insertion} {items : List α}
    (hstep : ∀ (g : Graph) (item : α), g.contains id = true → g.Accepts (calls item)) {g : Graph}
    (h : g.contains id = true) : g.Accepts (items.flatMap calls) := by
  induction items generalizing g with
  | nil => exact accepts_nil g
  | cons item items ih => exact accepts_append (hstep g item h) (ih (contains_insertAll h _))

/-- The calls of a loop are those of its rounds, one after the other. -/
theorem foldl_eq_insertAll {α : Type} {add : Graph → α → Graph} {calls : α → List Insertion}
    (hadd : ∀ g item, add g item = g.insertAll (calls item)) (items : List α) (g : Graph) :
    items.foldl add g = g.insertAll (items.flatMap calls) := by
  induction items generalizing g with
  | nil => rfl
  | cons item items ih => rw [List.foldl_cons, hadd, ih, List.flatMap_cons, insertAll_append]

/-- Nodes and edges that are not checked are never refused. -/
theorem accepts_of_unchecked {calls : List Insertion} (h : ∀ edge, Insertion.edge edge ∉ calls)
    (g : Graph) : g.Accepts calls := by
  rintro before edge after rfl
  exact absurd (by simp) (h edge)

end Graph

/-! ## Calls of all extractors -/

/-- The calls for an entity that the file owns. -/
def ownedCalls (file : SourceFile) (kind : EdgeKind) (node : Node) : List Insertion :=
  [.node node, .edge { source := file.id, target := node.id, kind }]

/-- The calls for a base of the class `id`; the edge to it is not checked. -/
def baseCalls (id base : String) : List Insertion :=
  [.node (Node.classRef base),
    .deferredEdge { source := id, target := classRefId base, kind := .inherits }]

/-- The call for an import; the edge is not checked. -/
def importCalls (file : SourceFile) (target : String) : List Insertion :=
  [.deferredEdge (importEdge file target)]

namespace Graph

theorem addBase_eq (id : String) (g : Graph) (base : String) :
    g.addBase id base = g.insertAll (baseCalls id base) := rfl

theorem addImport_eq (file : SourceFile) (g : Graph) (target : String) :
    g.addImport file target = g.insertAll (importCalls file target) := rfl

variable {g : Graph} {file : SourceFile}

/-- An edge to a node that has just been inserted is not refused if it begins at a node. -/
theorem accepts_node_edge {node : Node} {edge : Edge} (hsource : g.contains edge.source = true)
    (htarget : edge.target = node.id) : g.Accepts [.node node, .edge edge] := by
  refine accepts_cons_iff.mpr ⟨nofun, accepts_cons_iff.mpr ⟨?_, accepts_nil _⟩⟩
  rintro _ ⟨⟩
  simp [insert, holdsEnds, contains_addNode, hsource, htarget]

theorem accepts_ownedCalls (h : g.contains file.id = true) (kind : EdgeKind) (node : Node) :
    g.Accepts (ownedCalls file kind node) :=
  accepts_node_edge h rfl

theorem contains_ownedCalls (g : Graph) (file : SourceFile) (kind : EdgeKind) (node : Node) :
    (g.insertAll (ownedCalls file kind node)).contains node.id = true :=
  Grown.contains_addOwned g file kind node

theorem accepts_baseCalls (g : Graph) (id base : String) : g.Accepts (baseCalls id base) :=
  accepts_of_unchecked (by simp [baseCalls]) g

theorem accepts_importCalls (g : Graph) (file : SourceFile) (target : String) :
    g.Accepts (importCalls file target) :=
  accepts_of_unchecked (by simp [importCalls]) g

end Graph

/-! ## Files of any language -/

namespace Generic

/-- The calls for a file with this text. -/
def calls (file : SourceFile) (text : List Char) : List Insertion :=
  .node file.node :: (importTargets text).flatMap (importCalls file)

theorem fragment_eq_insertAll (file : SourceFile) (text : List Char) :
    fragment file text = Graph.empty.insertAll (calls file text) :=
  Graph.foldl_eq_insertAll (Graph.addImport_eq file) _ file.bareFragment

end Generic

/-! ## Script files -/

namespace Script

/-- The calls for a route. -/
def routeCalls (file : SourceFile) (found : Pattern.Occurrence) : List Insertion :=
  match found.captures with
  | verb :: path :: _ => ownedCalls file .endpointHandler (routeNode file found.line verb path)
  | _ => []

/-- The calls for a class. -/
def classCalls (file : SourceFile) (found : Pattern.Occurrence) : List Insertion :=
  match found.captures with
  | name :: rest =>
    ownedCalls file .uses (classNode file found.line name rest.head?)
      ++ rest.head?.toList.flatMap (baseCalls (classId file.path name))
  | [] => []

/-- The calls for a function. -/
def functionCalls (file : SourceFile) (found : Nat × String) : List Insertion :=
  ownedCalls file .uses (functionNode file found.1 found.2)

/-- The calls for a data model. -/
def modelCalls (file : SourceFile) (found : Nat × String) : List Insertion :=
  ownedCalls file .uses (modelNode file found.1 found.2)

/-- The call for a mark; the edge is not checked. -/
def markCalls (file : SourceFile) (kind : EdgeKind) : List Insertion :=
  [.deferredEdge (Edge.marker file.id kind)]

/-- The calls for the router that a file may set up. -/
def routerCalls (file : SourceFile) (text : List Char) : List Insertion :=
  if routerSetUp.occursIn text then ownedCalls file .uses (routerNode file) else []

/-- The calls for all that a text holds. -/
def itemCalls (file : SourceFile) (text : List Char) : List Insertion :=
  (route.occurrences text).flatMap (routeCalls file)
    ++ (classDeclaration.occurrences text).flatMap (classCalls file)
    ++ (functions text).flatMap (functionCalls file)
    ++ (models text).flatMap (modelCalls file)
    ++ (importedModules text).flatMap (importCalls file)
    ++ (marks text).flatMap (markCalls file)
    ++ routerCalls file text

/-- The calls for a file with this text. -/
def calls (file : SourceFile) (text : List Char) : List Insertion :=
  .node file.node :: itemCalls file text

variable {file : SourceFile} {g : Graph}

/-! ### The calls are those of the extractor -/

theorem addRoute_eq (file : SourceFile) (g : Graph) (found : Pattern.Occurrence) :
    addRoute file g found = g.insertAll (routeCalls file found) := by
  unfold addRoute routeCalls
  rcases found.captures with _ | ⟨verb, _ | ⟨path, rest⟩⟩ <;> rfl

theorem addClass_eq (file : SourceFile) (g : Graph) (found : Pattern.Occurrence) :
    addClass file g found = g.insertAll (classCalls file found) := by
  unfold addClass classCalls
  cases found.captures with
  | nil => rfl
  | cons name rest =>
      dsimp only
      rw [Graph.insertAll_append, Graph.foldl_eq_insertAll (Graph.addBase_eq _)]
      rfl

theorem addFunction_eq (file : SourceFile) (g : Graph) (found : Nat × String) :
    addFunction file g found = g.insertAll (functionCalls file found) := rfl

theorem addModel_eq (file : SourceFile) (g : Graph) (found : Nat × String) :
    addModel file g found = g.insertAll (modelCalls file found) := rfl

theorem addMark_eq (file : SourceFile) (g : Graph) (kind : EdgeKind) :
    addMark file g kind = g.insertAll (markCalls file kind) := rfl

theorem addRouter_eq (file : SourceFile) (g : Graph) (text : List Char) :
    (if routerSetUp.occursIn text then g.addOwned file .uses (routerNode file) else g)
      = g.insertAll (routerCalls file text) := by
  unfold routerCalls
  split <;> rfl

theorem fragment_eq_insertAll (file : SourceFile) (text : List Char) :
    fragment file text = Graph.empty.insertAll (calls file text) := by
  unfold fragment calls itemCalls
  dsimp only
  rw [Graph.foldl_eq_insertAll (addRoute_eq file), Graph.foldl_eq_insertAll (addClass_eq file),
    Graph.foldl_eq_insertAll (addFunction_eq file), Graph.foldl_eq_insertAll (addModel_eq file),
    Graph.foldl_eq_insertAll (Graph.addImport_eq file), Graph.foldl_eq_insertAll (addMark_eq file),
    addRouter_eq, Graph.insertAll_cons]
  simp only [Graph.insertAll_append]
  rfl

/-! ### None of the calls is refused -/

theorem accepts_routeCalls (h : g.contains file.id = true) (found : Pattern.Occurrence) :
    g.Accepts (routeCalls file found) := by
  unfold routeCalls
  split
  · exact Graph.accepts_ownedCalls h _ _
  · exact Graph.accepts_nil g

theorem accepts_classCalls (h : g.contains file.id = true) (found : Pattern.Occurrence) :
    g.Accepts (classCalls file found) := by
  unfold classCalls
  split
  · refine Graph.accepts_append (Graph.accepts_ownedCalls h _ _) ?_
    exact Graph.accepts_flatMap (fun g base _ => Graph.accepts_baseCalls g _ base)
      (Graph.contains_insertAll h _)
  · exact Graph.accepts_nil g

theorem accepts_routerCalls (h : g.contains file.id = true) (text : List Char) :
    g.Accepts (routerCalls file text) := by
  unfold routerCalls
  split
  · exact Graph.accepts_ownedCalls h _ _
  · exact Graph.accepts_nil g

theorem accepts_itemCalls (h : g.contains file.id = true) (text : List Char) :
    g.Accepts (itemCalls file text) := by
  -- every part relies on the node of the file, which no call takes away
  have hheld : ∀ calls, (g.insertAll calls).contains file.id = true := Graph.contains_insertAll h
  unfold itemCalls
  refine Graph.accepts_append (Graph.accepts_append (Graph.accepts_append (Graph.accepts_append
    (Graph.accepts_append (Graph.accepts_append ?routes ?classes) ?functions) ?models) ?imports)
    ?marks) ?router
  case routes => exact Graph.accepts_flatMap (fun _ found held => accepts_routeCalls held found) h
  case classes =>
    exact Graph.accepts_flatMap (fun _ found held => accepts_classCalls held found) (hheld _)
  case functions =>
    exact Graph.accepts_flatMap (fun _ _ held => Graph.accepts_ownedCalls held _ _) (hheld _)
  case models =>
    exact Graph.accepts_flatMap (fun _ _ held => Graph.accepts_ownedCalls held _ _) (hheld _)
  case imports =>
    exact Graph.accepts_flatMap (fun g target _ => Graph.accepts_importCalls g file target) (hheld _)
  case marks =>
    exact Graph.accepts_flatMap
      (fun g kind _ => Graph.accepts_of_unchecked (by simp [markCalls]) g) (hheld _)
  case router => exact accepts_routerCalls (hheld _) text

end Script

/-! ## Python files -/

namespace Python

/-- The calls for a method of a class. -/
def methodCalls (file : SourceFile) (className : String) (visit : Tree.Visit) : List Insertion :=
  match visit.tree.form with
  | .functionDef name _ =>
    if anyOf (decoratorNames visit.decorators) Signals.endpointDecorators then
      let node := methodNode file className name visit
      [.node node, .edge
        { source := classId file.path className, target := node.id, kind := .endpointHandler }]
    else []
  | _ => []

/-- The calls for a class. -/
def classCalls (file : SourceFile) (visit : Tree.Visit) : List Insertion :=
  match visit.tree.form with
  | .classDef name =>
    ownedCalls file .uses (classNode file name visit)
      ++ (namedBases visit.tree).flatMap (baseCalls (classId file.path name))
      ++ (visit.tree.visits []).flatMap (methodCalls file name)
  | _ => []

/-- The calls for a function of the module. -/
def functionCalls (file : SourceFile) (visit : Tree.Visit) : List Insertion :=
  match visit.tree.form with
  | .functionDef name isAsync =>
    let node := functionNode file name isAsync visit
    ownedCalls file .uses node
      ++ if node.kind = .endpoint then
          [.edge { source := file.id, target := node.id, kind := .endpointHandler }]
        else []
  | _ => []

/-- The call for a mark; the edge is not checked. -/
def markCalls (mark : Edge) : List Insertion :=
  [.deferredEdge mark]

/-- The calls for all that a tree holds. -/
def itemCalls (file : SourceFile) (tree : Tree) : List Insertion :=
  (tree.visits []).flatMap (classCalls file)
    ++ (moduleFunctions tree).flatMap (functionCalls file)
    ++ (imports tree).flatMap (importCalls file)
    ++ (marks file tree).flatMap markCalls

/-- The calls for a well-formed file. -/
def calls (file : SourceFile) (tree : Tree) : List Insertion :=
  .node file.node :: itemCalls file tree

variable {file : SourceFile} {g : Graph}

/-! ### The calls are those of the extractor -/

theorem addMethod_eq (file : SourceFile) (className : String) (g : Graph) (visit : Tree.Visit) :
    addMethod file className g visit = g.insertAll (methodCalls file className visit) := by
  unfold addMethod methodCalls
  cases visit.tree.form
  case functionDef name isAsync =>
    dsimp only
    split <;> rfl
  all_goals rfl

theorem addClass_eq (file : SourceFile) (g : Graph) (visit : Tree.Visit) :
    addClass file g visit = g.insertAll (classCalls file visit) := by
  unfold addClass classCalls
  cases visit.tree.form
  case classDef name =>
    dsimp only
    rw [Graph.foldl_eq_insertAll (Graph.addBase_eq _),
      Graph.foldl_eq_insertAll (addMethod_eq file name), Graph.insertAll_append,
      Graph.insertAll_append]
    rfl
  all_goals rfl

theorem addFunction_eq (file : SourceFile) (g : Graph) (visit : Tree.Visit) :
    addFunction file g visit = g.insertAll (functionCalls file visit) := by
  unfold addFunction functionCalls
  cases visit.tree.form
  case functionDef name isAsync =>
    dsimp only
    rw [Graph.insertAll_append]
    split <;> rfl
  all_goals rfl

theorem addMark_eq (g : Graph) (mark : Edge) :
    g.addEdgeDeferred mark = g.insertAll (markCalls mark) := rfl

theorem fragmentOf_eq_insertAll (file : SourceFile) (tree : Tree) :
    fragmentOf file tree = Graph.empty.insertAll (calls file tree) := by
  unfold fragmentOf calls itemCalls
  dsimp only
  rw [Graph.foldl_eq_insertAll (addClass_eq file), Graph.foldl_eq_insertAll (addFunction_eq file),
    Graph.foldl_eq_insertAll (Graph.addImport_eq file), Graph.foldl_eq_insertAll addMark_eq,
    Graph.insertAll_cons]
  simp only [Graph.insertAll_append]
  rfl

/-! ### None of the calls is refused -/

theorem accepts_methodCalls {className : String}
    (h : g.contains (classId file.path className) = true) (visit : Tree.Visit) :
    g.Accepts (methodCalls file className visit) := by
  unfold methodCalls
  split
  · split
    · exact Graph.accepts_node_edge h rfl
    · exact Graph.accepts_nil g
  · exact Graph.accepts_nil g

theorem accepts_classCalls (h : g.contains file.id = true) (visit : Tree.Visit) :
    g.Accepts (classCalls file visit) := by
  unfold classCalls
  split
  · rename_i name _
    -- the edges to the methods begin at the class, which has come in before them
    have hclass : (g.insertAll (ownedCalls file .uses (classNode file name visit))).contains
        (classId file.path name) = true :=
      Graph.contains_ownedCalls g file .uses (classNode file name visit)
    refine Graph.accepts_append (Graph.accepts_append (Graph.accepts_ownedCalls h _ _) ?_) ?_
    · exact Graph.accepts_flatMap (fun g base _ => Graph.accepts_baseCalls g _ base) hclass
    · rw [Graph.insertAll_append]
      exact Graph.accepts_flatMap (fun _ method held => accepts_methodCalls held method)
        (Graph.contains_insertAll hclass _)
  · exact Graph.accepts_nil g

theorem accepts_functionCalls (h : g.contains file.id = true) (visit : Tree.Visit) :
    g.Accepts (functionCalls file visit) := by
  unfold functionCalls
  split
  · rename_i name isAsync _
    refine Graph.accepts_append (Graph.accepts_ownedCalls h _ _) ?_
    split
    · -- the second edge of an endpoint links the same two nodes
      refine Graph.accepts_cons_iff.mpr ⟨?_, Graph.accepts_nil _⟩
      rintro _ ⟨⟩
      rw [Graph.holdsEnds, Graph.contains_insertAll h, Graph.contains_ownedCalls, Bool.and_self]
    · exact Graph.accepts_nil _
  · exact Graph.accepts_nil g

theorem accepts_itemCalls (h : g.contains file.id = true) (tree : Tree) :
    g.Accepts (itemCalls file tree) := by
  have hheld : ∀ calls, (g.insertAll calls).contains file.id = true := Graph.contains_insertAll h
  unfold itemCalls
  refine Graph.accepts_append (Graph.accepts_append (Graph.accepts_append ?classes ?functions)
    ?imports) ?marks
  case classes => exact Graph.accepts_flatMap (fun _ visit held => accepts_classCalls held visit) h
  case functions =>
    exact Graph.accepts_flatMap (fun _ visit held => accepts_functionCalls held visit) (hheld _)
  case imports =>
    exact Graph.accepts_flatMap (fun g target _ => Graph.accepts_importCalls g file target) (hheld _)
  case marks =>
    exact Graph.accepts_flatMap
      (fun g mark _ => Graph.accepts_of_unchecked (by simp [markCalls]) g) (hheld _)

end Python

/-! ## Files of every language -/

/-- The calls for a file with this text, read as a file of the family. -/
def Language.calls (language : Language) (file : SourceFile) (text : List Char) : List Insertion :=
  match language with
  | .python => Python.calls file (Python.Tree.ofText text)
  | .script => Script.calls file text
  | .generic => Generic.calls file text

/-- A fragment is closed: it begins with the node of its file, its edges lead from node to node or
from a node to a placeholder, and its nodes are of the file. -/
structure Graph.ClosedFragment (g : Graph) (file : SourceFile) : Prop where
  begins : g.nodes[0]? = some file.node
  sources : ∀ edge ∈ g.edges, ∃ n ∈ g.nodes, n.id = edge.source
  targets : ∀ edge ∈ g.edges, (∃ n ∈ g.nodes, n.id = edge.target) ∨
    edge.kind = .imports ∧ ∃ module, edge.target = "module:" ++ module
  paths : ∀ n ∈ g.nodes, (∃ name, n = Node.classRef name) ∨ n.path = file.path

/-- What the calls of an extractor come to. -/
structure Language.Extracts (language : Language) (file : SourceFile) (text : List Char)
    (g : Graph) : Prop where
  closed : g.ClosedFragment file
  /-- The graph is what the calls make of the empty one. -/
  eq_insertAll : g = Graph.empty.insertAll (language.calls file text)
  /-- Where an edge is checked, both of its ends are there. -/
  accepts : Graph.empty.Accepts (language.calls file text)

theorem Language.fragment_eq_insertAll {language : Language} {file : SourceFile} {text : List Char}
    {g : Graph} (h : language.fragment file text = .ok g) :
    g = Graph.empty.insertAll (language.calls file text) := by
  cases language with
  | python =>
      simp only [Language.fragment, Python.fragment] at h
      split at h
      · cases h
      · cases h
        exact Python.fragmentOf_eq_insertAll file _
  | script =>
      cases h
      exact Script.fragment_eq_insertAll file text
  | generic =>
      cases h
      exact Generic.fragment_eq_insertAll file text

/-- The first call inserts the node of the file, and all others rely on that. -/
theorem Language.accepts_calls (language : Language) (file : SourceFile) (text : List Char) :
    Graph.empty.Accepts (language.calls file text) := by
  have hfile : (Graph.empty.insert (.node file.node)).contains file.id = true :=
    Grown.bare.contains_file
  cases language with
  | python => exact Graph.accepts_cons_iff.mpr ⟨nofun, Python.accepts_itemCalls hfile _⟩
  | script => exact Graph.accepts_cons_iff.mpr ⟨nofun, Script.accepts_itemCalls hfile text⟩
  | generic =>
      refine Graph.accepts_cons_iff.mpr ⟨nofun, ?_⟩
      exact Graph.accepts_flatMap (fun g target _ => Graph.accepts_importCalls g file target) hfile

namespace Grown

variable {file : SourceFile} {targets : List String} {g : Graph}

/-- The node of the file stays in front. -/
theorem begins (h : Grown file targets g) : g.nodes[0]? = some file.node := by
  induction h with
  | bare => simp
  | bring _ _ _ ih =>
      rw [Graph.nodes_addEdgeDeferred, Graph.nodes_addNode]
      split
      · exact ih
      · have hsize := (Array.getElem?_eq_some_iff.mp ih).1
        rw [Array.getElem?_push, if_neg (by omega), ih]
  | link _ _ _ ih => exact ih
  | «import» _ _ ih => exact ih

theorem closedFragment (h : Grown file targets g) : g.ClosedFragment file := by
  have hnode : ∀ {id}, g.contains id = true → ∃ n ∈ g.nodes, n.id = id := by
    intro id hid
    obtain ⟨n, hn, heq⟩ := List.mem_map.mp (h.indexed.contains_iff.mp hid)
    exact ⟨n, Array.mem_toList_iff.mp hn, heq⟩
  refine ⟨h.begins, fun edge hedge => ?_, fun edge hedge => ?_, fun n hn => ?_⟩
  · rcases h.mem_edges (Array.mem_toList_iff.mpr hedge) with ⟨-, hends⟩ | ⟨target, -, rfl⟩
    · rw [Graph.holdsEnds, Bool.and_eq_true] at hends
      exact hnode hends.1
    · exact hnode h.contains_file
  · rcases h.mem_edges (Array.mem_toList_iff.mpr hedge) with ⟨-, hends⟩ | ⟨target, -, rfl⟩
    · rw [Graph.holdsEnds, Bool.and_eq_true] at hends
      exact Or.inl (hnode hends.2)
    · exact Or.inr ⟨rfl, target, rfl⟩
  · rcases h.mem_nodes hn with rfl | ⟨edge, brings⟩
    · exact Or.inr rfl
    · cases brings with
      | owned _ here _ => exact Or.inr here
      | method _ _ here => exact Or.inr here
      | base _ base => exact Or.inl ⟨base, rfl⟩

end Grown

/-- **Fragments are closed**, whatever the language, the file and the text: none of the edges that
are checked while the fragment is built is refused, and in the end no edge hangs in the air but the
imports. -/
theorem fragment_closed {language : Language} {file : SourceFile} {text : List Char} {g : Graph}
    (h : language.fragment file text = .ok g) : language.Extracts file text g where
  closed := (Language.grown_fragment h).closedFragment
  eq_insertAll := Language.fragment_eq_insertAll h
  accepts := language.accepts_calls file text

/-- A class with a base and an endpoint, and an import. -/
def endpointUnderBase : List Char :=
  "import os\nclass A(B):\n @get\n def f(): pass\n".toList

/-- The edge from a class to its endpoint is checked and not refused. -/
theorem fragment_closed_endpointUnderBase :
    ∃ g, Language.python.fragment (SourceFile.at ["repo"] ["a.py"]) endpointUnderBase = .ok g ∧
      Language.python.Extracts (SourceFile.at ["repo"] ["a.py"]) endpointUnderBase g := by
  have hfault : (Python.Tree.ofText endpointUnderBase).hasFault = false := by cbv
  have hfragment : Language.python.fragment (SourceFile.at ["repo"] ["a.py"]) endpointUnderBase
      = .ok (Python.fragmentOf (SourceFile.at ["repo"] ["a.py"])
          (Python.Tree.ofText endpointUnderBase)) := by
    rw [Language.fragment, Python.fragment, hfault]
    rfl
  exact ⟨_, hfragment, fragment_closed hfragment⟩

end Cartograph
