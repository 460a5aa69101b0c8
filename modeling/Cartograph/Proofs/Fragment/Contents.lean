import Cartograph.Proofs.Fragment.Closed
import Cartograph.Proofs.Graph.Interleaving

/-!
# What a file puts into a graph

Every extractor goes through what it finds in a text and adds something for each find. Taken
together this is one list of nodes and one list of edges, both of which can be read off the text.
Main statement: the fragment of a file has the first of these nodes and all of these edges, none of
which is ever refused (`SourceFile.contribution_eq_put`).
-/

namespace Cartograph

/-! ## Contents -/

/-- What is put into a graph: nodes, of which the first with an identifier stays, and edges. -/
structure Contents where
  nodes : List Node := []
  edges : List Edge := []

namespace Contents

/-- One after the other. -/
instance : Append Contents where
  append a b := { nodes := a.nodes ++ b.nodes, edges := a.edges ++ b.edges }

@[simp] theorem nodes_append (a b : Contents) : (a ++ b).nodes = a.nodes ++ b.nodes := rfl

@[simp] theorem edges_append (a b : Contents) : (a ++ b).edges = a.edges ++ b.edges := rfl

/-- All of some contents, one after the other. -/
def all (parts : List Contents) : Contents where
  nodes := parts.flatMap nodes
  edges := parts.flatMap edges

@[simp] theorem nodes_all (parts : List Contents) : (all parts).nodes = parts.flatMap nodes := rfl

@[simp] theorem edges_all (parts : List Contents) : (all parts).edges = parts.flatMap edges := rfl

theorem all_cons (first : Contents) (rest : List Contents) :
    all (first :: rest) = first ++ all rest := rfl

/-- What one turn of a loop puts in is among all that the loop does. -/
theorem mem_edges_all {α : Type} {part : α → Contents} {items : List α} {item : α} {edge : Edge}
    (hitem : item ∈ items) (h : edge ∈ (part item).edges) : edge ∈ (all (items.map part)).edges :=
  List.mem_flatMap.mpr ⟨part item, List.mem_map_of_mem hitem, h⟩

/-- An entity with an edge to it from the node of its file. -/
def owned (file : SourceFile) (kind : EdgeKind) (node : Node) : Contents where
  nodes := [node]
  edges := [{ source := file.id, target := node.id, kind }]

/-- A base class of the class `id`. -/
def base (id base : String) : Contents where
  nodes := [Node.classRef base]
  edges := [{ source := id, target := classRefId base, kind := .inherits }]

end Contents

namespace Graph

/-- The graph with contents put in. -/
def put (g : Graph) (contents : Contents) : Graph :=
  { contents.nodes.foldl addNode g with edges := g.edges ++ contents.edges.toArray }

@[simp] theorem put_empty (g : Graph) : g.put {} = g := by
  simp [put]

/-- Contents that are put in one after the other are put in together. -/
theorem put_put (g : Graph) (a b : Contents) : (g.put a).put b = g.put (a ++ b) := by
  rw [put, put, put, foldl_addNode_withEdges, Contents.nodes_append, List.foldl_append]
  simp

/-- The identifiers after contents are put in are those before and those of the nodes put in. -/
theorem contains_put_iff {g : Graph} {contents : Contents} {id : String} :
    (g.put contents).contains id = true ↔
      g.contains id = true ∨ ∃ n ∈ contents.nodes, n.id = id := by
  have hnodes : ∀ (nodes : List Node) (g : Graph), (nodes.foldl addNode g).contains id = true ↔
      g.contains id = true ∨ ∃ n ∈ nodes, n.id = id := by
    intro nodes
    induction nodes with
    | nil => simp
    | cons node rest ih =>
        intro g
        rw [List.foldl_cons, ih, contains_addNode, Bool.or_eq_true, beq_iff_eq, or_assoc]
        simp
  exact hnodes contents.nodes g

/-- Putting contents in takes no identifier away. -/
theorem contains_put_of_contains {g : Graph} {id : String} (h : g.contains id = true)
    (contents : Contents) : (g.put contents).contains id = true :=
  contains_put_iff.mpr (Or.inl h)

/-- What is put in is there. -/
theorem contains_put_owned (g : Graph) (file : SourceFile) (kind : EdgeKind) (node : Node) :
    (g.put (.owned file kind node)).contains node.id = true :=
  contains_put_iff.mpr (Or.inr ⟨node, List.mem_singleton_self node, rfl⟩)

/-- **A loop that puts something in for every item** puts all of it in. The items may rely on a node
that is there from the start. -/
theorem foldl_eq_put {α : Type} {id : String} {add : Graph → α → Graph} {part : α → Contents}
    (hadd : ∀ g item, g.contains id = true → add g item = g.put (part item)) (items : List α)
    {g : Graph} (h : g.contains id = true) :
    items.foldl add g = g.put (.all (items.map part)) := by
  induction items generalizing g with
  | nil => exact (put_empty g).symm
  | cons item rest ih =>
      rw [List.foldl_cons, hadd g item h, ih (contains_put_of_contains h _), put_put,
        List.map_cons, Contents.all_cons]

/-! ## Single steps -/

theorem addEdgeDeferred_eq_put (g : Graph) (edge : Edge) :
    g.addEdgeDeferred edge = g.put { edges := [edge] } := by
  simp [addEdgeDeferred, put]

/-- An entity is never refused the edge from its file. -/
theorem addOwned_eq_put {g : Graph} {file : SourceFile} (h : g.contains file.id = true)
    (kind : EdgeKind) (node : Node) :
    g.addOwned file kind node = g.put (.owned file kind node) := by
  rw [addOwned, addNode_addEdge h rfl]
  simp [addEdgeDeferred, put, Contents.owned, edges_addNode]

theorem addBase_eq_put (id : String) (g : Graph) (base : String) :
    g.addBase id base = g.put (.base id base) := by
  simp [addBase, addEdgeDeferred, put, Contents.base, edges_addNode]

theorem addImport_eq_put (file : SourceFile) (g : Graph) (target : String) :
    g.addImport file target = g.put { edges := [importEdge file target] } :=
  addEdgeDeferred_eq_put g _

end Graph

/-! ## Script files -/

namespace Script

variable {file : SourceFile}

/-- What a route puts in. -/
def routeContents (file : SourceFile) (found : Pattern.Occurrence) : Contents :=
  match found.captures with
  | verb :: path :: _ => .owned file .endpointHandler (routeNode file found.line verb path)
  | _ => {}

/-- What a class puts in: its node and its base. -/
def classContents (file : SourceFile) (found : Pattern.Occurrence) : Contents :=
  match found.captures with
  | name :: rest =>
    .owned file .uses (classNode file found.line name rest.head?)
      ++ .all (rest.head?.toList.map (.base (classId file.path name)))
  | [] => {}

/-- What a function puts in. -/
def functionContents (file : SourceFile) (found : Nat × String) : Contents :=
  .owned file .uses (functionNode file found.1 found.2)

/-- What a data model puts in. -/
def modelContents (file : SourceFile) (found : Nat × String) : Contents :=
  .owned file .uses (modelNode file found.1 found.2)

/-- What a file with this text puts in. -/
def contents (file : SourceFile) (text : List Char) : Contents :=
  .all ((route.occurrences text).map (routeContents file))
    ++ .all ((classDeclaration.occurrences text).map (classContents file))
    ++ .all ((functions text).map (functionContents file))
    ++ .all ((models text).map (modelContents file))
    ++ .all ((importedModules text).map fun target => { edges := [importEdge file target] })
    ++ .all ((marks text).map fun kind => { edges := [Edge.marker file.id kind] })
    ++ if routerSetUp.occursIn text then .owned file .uses (routerNode file) else {}

theorem addRoute_eq_put {g : Graph} (h : g.contains file.id = true) (found : Pattern.Occurrence) :
    addRoute file g found = g.put (routeContents file found) := by
  unfold addRoute routeContents
  rcases found.captures with _ | ⟨verb, _ | ⟨path, rest⟩⟩
  · exact (Graph.put_empty g).symm
  · exact (Graph.put_empty g).symm
  · exact Graph.addOwned_eq_put h _ _

theorem addClass_eq_put {g : Graph} (h : g.contains file.id = true) (found : Pattern.Occurrence) :
    addClass file g found = g.put (classContents file found) := by
  unfold addClass classContents
  cases found.captures with
  | nil => exact (Graph.put_empty g).symm
  | cons name rest =>
      dsimp only
      rw [Graph.addOwned_eq_put h, ← Graph.put_put]
      exact Graph.foldl_eq_put (fun g base _ => Graph.addBase_eq_put _ g base) _
        (Graph.contains_put_of_contains h _)

theorem addFunction_eq_put {g : Graph} (h : g.contains file.id = true) (found : Nat × String) :
    addFunction file g found = g.put (functionContents file found) :=
  Graph.addOwned_eq_put h _ _

theorem addModel_eq_put {g : Graph} (h : g.contains file.id = true) (found : Nat × String) :
    addModel file g found = g.put (modelContents file found) :=
  Graph.addOwned_eq_put h _ _

theorem addMark_eq_put (g : Graph) (kind : EdgeKind) :
    addMark file g kind = g.put { edges := [Edge.marker file.id kind] } :=
  Graph.addEdgeDeferred_eq_put g _

theorem fragment_eq_put (file : SourceFile) (text : List Char) :
    fragment file text = file.bareFragment.put (contents file text) := by
  -- every loop relies on the node of the file, which is there from the start
  have hbare : file.bareFragment.contains file.id = true := Grown.bare.contains_file
  have hheld : ∀ contents, (file.bareFragment.put contents).contains file.id = true :=
    Graph.contains_put_of_contains hbare
  unfold fragment contents
  dsimp only
  rw [Graph.foldl_eq_put (fun g found h => addRoute_eq_put h found) _ hbare,
    Graph.foldl_eq_put (fun g found h => addClass_eq_put h found) _ (hheld _), Graph.put_put,
    Graph.foldl_eq_put (fun g found h => addFunction_eq_put h found) _ (hheld _), Graph.put_put,
    Graph.foldl_eq_put (fun g found h => addModel_eq_put h found) _ (hheld _), Graph.put_put,
    Graph.foldl_eq_put (fun g target _ => Graph.addImport_eq_put file g target) _ (hheld _),
    Graph.put_put,
    Graph.foldl_eq_put (fun g kind _ => addMark_eq_put g kind) _ (hheld _), Graph.put_put]
  split
  · rw [Graph.addOwned_eq_put (hheld _), Graph.put_put]
  · exact (Graph.put_empty _).symm.trans (Graph.put_put _ _ {})

end Script

/-! ## Python files -/

namespace Python

variable {file : SourceFile}

/-- What a method of a class puts in: its endpoint, if it is one. -/
def methodContents (file : SourceFile) (className : String) (visit : Tree.Visit) : Contents :=
  match visit.tree.form with
  | .functionDef name _ =>
    if anyOf (decoratorNames visit.decorators) Signals.endpointDecorators then
      { nodes := [methodNode file className name visit]
        edges := [{ source := classId file.path className
                    target := (methodNode file className name visit).id
                    kind := .endpointHandler }] }
    else {}
  | _ => {}

/-- What a class puts in: its node, its bases and its endpoints. -/
def classContents (file : SourceFile) (visit : Tree.Visit) : Contents :=
  match visit.tree.form with
  | .classDef name =>
    .owned file .uses (classNode file name visit)
      ++ .all ((namedBases visit.tree).map (.base (classId file.path name)))
      ++ .all ((visit.tree.visits []).map (methodContents file name))
  | _ => {}

/-- What a function of the module puts in. An endpoint has a second edge. -/
def functionContents (file : SourceFile) (visit : Tree.Visit) : Contents :=
  match visit.tree.form with
  | .functionDef name isAsync =>
    let node := functionNode file name isAsync visit
    .owned file .uses node
      ++ if node.kind = .endpoint then
          { edges := [{ source := file.id, target := node.id, kind := .endpointHandler }] }
        else {}
  | _ => {}

/-- What a well-formed file puts in. -/
def contents (file : SourceFile) (tree : Tree) : Contents :=
  .all ((tree.visits []).map (classContents file))
    ++ .all ((moduleFunctions tree).map (functionContents file))
    ++ .all ((imports tree).map fun target => { edges := [importEdge file target] })
    ++ .all ((marks file tree).map fun edge => { edges := [edge] })

theorem addMethod_eq_put {g : Graph} {className : String}
    (h : g.contains (classId file.path className) = true) (visit : Tree.Visit) :
    addMethod file className g visit = g.put (methodContents file className visit) := by
  unfold addMethod methodContents
  cases visit.tree.form
  case functionDef name isAsync =>
    dsimp only
    split
    · rw [Graph.addNode_addEdge h rfl]
      simp [Graph.addEdgeDeferred, Graph.put, Graph.edges_addNode]
    · exact (Graph.put_empty g).symm
  all_goals exact (Graph.put_empty g).symm

theorem addClass_eq_put {g : Graph} (h : g.contains file.id = true) (visit : Tree.Visit) :
    addClass file g visit = g.put (classContents file visit) := by
  unfold addClass classContents
  cases visit.tree.form
  case classDef name =>
    dsimp only
    -- bases and methods rely on the class, which stays there once it has come in
    have hclass : (g.put (.owned file .uses (classNode file name visit))).contains
        (classId file.path name) = true := Graph.contains_put_owned g file .uses _
    rw [Graph.addOwned_eq_put h,
      Graph.foldl_eq_put (fun g base _ => Graph.addBase_eq_put _ g base) _ hclass,
      Graph.foldl_eq_put (fun g method held => addMethod_eq_put held method) _
        (Graph.contains_put_of_contains hclass _), Graph.put_put _ (.owned _ _ _), Graph.put_put]
  all_goals exact (Graph.put_empty g).symm

theorem addFunction_eq_put {g : Graph} (h : g.contains file.id = true) (visit : Tree.Visit) :
    addFunction file g visit = g.put (functionContents file visit) := by
  unfold addFunction functionContents
  cases visit.tree.form
  case functionDef name isAsync =>
    dsimp only
    rw [Graph.addOwned_eq_put h, ← Graph.put_put]
    split
    · have hends : (g.put (.owned file .uses (functionNode file name isAsync visit))).holdsEnds
          { source := file.id, target := (functionNode file name isAsync visit).id
            kind := .endpointHandler } = true := by
        rw [Graph.holdsEnds, Graph.contains_put_of_contains h, Graph.contains_put_owned,
          Bool.and_self]
      rw [Graph.addEdge, if_pos hends, Graph.addEdgeDeferred_eq_put]
    · exact (Graph.put_empty _).symm
  all_goals exact (Graph.put_empty g).symm

theorem fragmentOf_eq_put (file : SourceFile) (tree : Tree) :
    fragmentOf file tree = file.bareFragment.put (contents file tree) := by
  have hbare : file.bareFragment.contains file.id = true := Grown.bare.contains_file
  have hheld : ∀ contents, (file.bareFragment.put contents).contains file.id = true :=
    Graph.contains_put_of_contains hbare
  unfold fragmentOf contents
  dsimp only
  rw [Graph.foldl_eq_put (fun g visit h => addClass_eq_put h visit) _ hbare,
    Graph.foldl_eq_put (fun g visit h => addFunction_eq_put h visit) _ (hheld _), Graph.put_put,
    Graph.foldl_eq_put (fun g target _ => Graph.addImport_eq_put file g target) _ (hheld _),
    Graph.put_put,
    Graph.foldl_eq_put (fun g edge _ => Graph.addEdgeDeferred_eq_put g edge) _ (hheld _),
    Graph.put_put]

end Python

/-! ## Files of every language -/

/-- What a file of any language puts in: its imports. -/
def Generic.contents (file : SourceFile) (text : List Char) : Contents :=
  .all ((importTargets text).map fun target => { edges := [importEdge file target] })

theorem Generic.fragment_eq_put (file : SourceFile) (text : List Char) :
    fragment file text = file.bareFragment.put (contents file text) :=
  Graph.foldl_eq_put (fun g target _ => Graph.addImport_eq_put file g target) _
    Grown.bare.contains_file

/-- What a file with this text puts in, read as a file of the family. -/
def Language.contents (language : Language) (file : SourceFile) (text : List Char) : Contents :=
  match language with
  | .python =>
    let tree := Python.Tree.ofText text
    if tree.hasFault then {} else Python.contents file tree
  | .script => Script.contents file text
  | .generic => Generic.contents file text

/-- What a file puts in besides its node; nothing if it cannot be looked into. -/
def SourceFile.contents (file : SourceFile) (tree : FileTree) (settings : ExtractionSettings) :
    Contents :=
  match file.read tree (file.language.readLimit? settings.readLimit) with
  | .ok text => file.language.contents file text
  | .error _ => {}

/-- **The fragment of a file** is the node of the file and all that the file puts in. -/
theorem SourceFile.contribution_eq_put (file : SourceFile) (tree : FileTree)
    (settings : ExtractionSettings) :
    file.contribution tree settings = file.bareFragment.put (file.contents tree settings) := by
  unfold contribution fragment? SourceFile.contents
  cases file.read tree (file.language.readLimit? settings.readLimit) with
  | error e => exact (Graph.put_empty _).symm
  | ok text =>
      cases hlanguage : file.language with
      | python =>
          simp only [bind, Except.bind, Language.fragment, Python.fragment, Language.contents]
          split
          · rename_i hfault
            split at hfault
            · cases hfault
            · rename_i hwell
              cases hfault
              rw [if_neg hwell]
              exact Python.fragmentOf_eq_put file _
          · rename_i hfault
            split at hfault
            · rename_i hbad
              rw [if_pos hbad]
              exact (Graph.put_empty _).symm
            · cases hfault
      | script => exact Script.fragment_eq_put file text
      | generic => exact Generic.fragment_eq_put file text

section

variable {file : SourceFile} {tree : FileTree} {settings : ExtractionSettings}

/-- The edges of a fragment are those that are put in. -/
theorem SourceFile.edges_contribution : (file.contribution tree settings).edges.toList
    = (file.contents tree settings).edges := by
  simp [contribution_eq_put, Graph.put]

end

end Cartograph
