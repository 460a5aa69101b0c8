import Cartograph.Extraction.Dispatch
import Cartograph.Proofs.Graph.Index

/-!
# How fragments grow

Whatever the language of a file, its fragment grows from the node of the file by few kinds of steps:
an entity comes in together with an edge that leads to it (`Brings`), two nodes that are there are
linked, or an import is noted. Main statement: every fragment is `Grown`
(`Language.grown_fragment`), so that a property of all fragments is shown step by step.
-/

namespace Cartograph

/-! ## Adding edges that are held -/

namespace Graph

@[simp] theorem contains_addEdgeDeferred (g : Graph) (edge : Edge) (id : String) :
    (g.addEdgeDeferred edge).contains id = g.contains id := rfl

/-- An edge from a node to a node that comes with it is never refused. -/
theorem addNode_addEdge {g : Graph} {node : Node} {edge : Edge}
    (hsource : g.contains edge.source = true) (htarget : edge.target = node.id) :
    (g.addNode node).addEdge edge = (g.addNode node).addEdgeDeferred edge := by
  rw [addEdge, if_pos]
  simp [holdsEnds, contains_addNode, hsource, htarget]

end Graph

/-! ## Steps -/

/-- The kinds of edges by which a file marks its own node. -/
def EdgeKind.IsMark (kind : EdgeKind) : Prop :=
  kind = .apiCall ∨ kind = .dbRead ∨ kind = .dbWrite

instance (kind : EdgeKind) : Decidable kind.IsMark :=
  inferInstanceAs (Decidable (_ ∨ _ ∨ _))

/-- A mark is not of a kind that other edges have. -/
theorem EdgeKind.IsMark.ne {kind other : EdgeKind} (h : kind.IsMark) (hother : ¬ other.IsMark) :
    kind ≠ other := by
  rintro rfl
  exact hother h

theorem EdgeKind.IsMark.ne_imports {kind : EdgeKind} (h : kind.IsMark) : kind ≠ .imports :=
  h.ne (by decide)

/-- The identifiers of what the file at `path` may declare. -/
inductive Declared (path : String) : String → Prop
  | class (name : String) : Declared path (classId path name)
  | function (name : String) : Declared path (functionId path name)
  | endpoint (label : String) : Declared path (endpointId path label)
  | model (name : String) : Declared path (modelId path name)
  | router : Declared path (routerId path)

/-- The entities that a file may bring in, each with the edge that leads to it. -/
inductive Brings (file : SourceFile) : Node → Edge → Prop
  /-- What the file declares, with an edge from the node of the file. -/
  | owned {node : Node} {kind : EdgeKind} (declared : Declared file.path node.id)
      (here : node.path = file.path) (sort : kind = .uses ∨ kind = .endpointHandler) :
      Brings file node { source := file.id, target := node.id, kind }
  /-- An endpoint, with an edge from its class. -/
  | method {node : Node} (name : String) {label : String}
      (endpoint : node.id = endpointId file.path label) (here : node.path = file.path) :
      Brings file node
        { source := classId file.path name, target := node.id, kind := .endpointHandler }
  /-- A class known by name only, with an edge from a class that it is a base of. -/
  | base (name base : String) :
      Brings file (Node.classRef base)
        { source := classId file.path name, target := classRefId base, kind := .inherits }

/-- The edge of an import in a file whose target is not known yet. -/
def importEdge (file : SourceFile) (target : String) : Edge :=
  { source := file.id, target := placeholderId target, kind := .imports }

/-- The graphs that grow from the node of a file, each with the targets of its imports in their
order. -/
inductive Grown (file : SourceFile) : List String → Graph → Prop
  | bare : Grown file [] file.bareFragment
  | bring {targets : List String} {g : Graph} {node : Node} {edge : Edge}
      (grown : Grown file targets g) (brings : Brings file node edge)
      (held : g.contains edge.source = true) :
      Grown file targets ((g.addNode node).addEdgeDeferred edge)
  | link {targets : List String} {g : Graph} {edge : Edge} (grown : Grown file targets g)
      (sort : edge.kind ≠ .imports) (held : g.holdsEnds edge = true) :
      Grown file targets (g.addEdgeDeferred edge)
  | import {targets : List String} {g : Graph} (grown : Grown file targets g) (target : String) :
      Grown file (targets ++ [target]) (g.addEdgeDeferred (importEdge file target))

namespace Grown

variable {file : SourceFile} {targets : List String} {g : Graph}

/-- The node of the file is there from the first step on. -/
theorem contains_file (h : Grown file targets g) : g.contains file.id = true := by
  induction h with
  | bare => simp [SourceFile.bareFragment, Graph.contains_addNode, SourceFile.node]
  | bring _ _ _ ih => simp [Graph.contains_addNode, ih]
  | link _ _ _ ih => exact ih
  | «import» _ _ ih => exact ih

/-! ## Steps of all languages -/

/-- A declared entity comes in with an edge from the node of the file. -/
theorem addOwned (h : Grown file targets g) {kind : EdgeKind} {node : Node}
    (declared : Declared file.path node.id) (here : node.path = file.path)
    (sort : kind = .uses ∨ kind = .endpointHandler) :
    Grown file targets (g.addOwned file kind node) := by
  rw [Graph.addOwned, Graph.addNode_addEdge h.contains_file rfl]
  exact h.bring (.owned declared here sort) h.contains_file

/-- What `addOwned` adds is there. -/
theorem contains_addOwned (g : Graph) (file : SourceFile) (kind : EdgeKind) (node : Node) :
    (g.addOwned file kind node).contains node.id = true := by
  unfold Graph.addOwned Graph.addEdge
  split <;> simp [Graph.contains_addNode]

/-- The bases of a class that is there come in one after the other, and the class stays. -/
theorem addBases (h : Grown file targets g) {name : String}
    (held : g.contains (classId file.path name) = true) (bases : List String) :
    Grown file targets (bases.foldl (Graph.addBase (classId file.path name)) g) ∧
      (bases.foldl (Graph.addBase (classId file.path name)) g).contains
        (classId file.path name) = true := by
  refine List.foldlRecOn bases (Graph.addBase (classId file.path name))
    (motive := fun g => Grown file targets g ∧ g.contains (classId file.path name) = true)
    ⟨h, held⟩ ?_
  -- the edge to a base begins at the class, so it is the class that has to be there
  rintro g ⟨grown, held⟩ base -
  refine ⟨grown.bring (.base name base) held, ?_⟩
  simp [Graph.addBase, Graph.contains_addNode, held]

/-- Entities of one sort come in one after the other. -/
theorem foldl {α : Type} (h : Grown file targets g) {add : Graph → α → Graph} (items : List α)
    (step : ∀ g, ∀ item ∈ items, Grown file targets g → Grown file targets (add g item)) :
    Grown file targets (items.foldl add g) :=
  List.foldlRecOn items add h fun g grown item hitem => step g item hitem grown

/-- Imports come in one after the other and are counted. -/
theorem addImports (h : Grown file targets g) (added : List String) :
    Grown file (targets ++ added) (added.foldl (Graph.addImport file) g) := by
  induction added generalizing targets g with
  | nil => rwa [List.append_nil]
  | cons target rest ih =>
      have hrest := ih (h.import target)
      rwa [List.append_assoc, List.singleton_append] at hrest

end Grown

/-! ## Files of any language -/

/-- A file of any language notes imports and nothing else. -/
theorem Generic.grown_fragment (file : SourceFile) (text : List Char) :
    Grown file (Generic.importTargets text) (Generic.fragment file text) :=
  Grown.bare.addImports (Generic.importTargets text)

/-! ## Script files -/

namespace Script

variable {file : SourceFile} {targets : List String} {g : Graph}

theorem grown_addRoute (h : Grown file targets g) (found : Pattern.Occurrence) :
    Grown file targets (addRoute file g found) := by
  unfold addRoute
  split
  · exact h.addOwned (.endpoint _) rfl (Or.inr rfl)
  · exact h

theorem grown_addClass (h : Grown file targets g) (found : Pattern.Occurrence) :
    Grown file targets (addClass file g found) := by
  unfold addClass
  split
  · rename_i name rest _
    have hclass : Grown file targets
        (g.addOwned file .uses (classNode file found.line name rest.head?)) :=
      h.addOwned (.class name) rfl (Or.inl rfl)
    exact (hclass.addBases (Grown.contains_addOwned g file _ _) _).1
  · exact h

theorem grown_addFunction (h : Grown file targets g) (found : Nat × String) :
    Grown file targets (addFunction file g found) :=
  h.addOwned (.function found.2) rfl (Or.inl rfl)

theorem grown_addModel (h : Grown file targets g) (found : Nat × String) :
    Grown file targets (addModel file g found) :=
  h.addOwned (.model found.2) rfl (Or.inl rfl)

/-- The marks of a script file are kinds of marks. -/
theorem isMark_of_mem_marks {text : List Char} {kind : EdgeKind} (h : kind ∈ marks text) :
    kind.IsMark := by
  unfold marks at h
  obtain ⟨entry, hentry, rfl⟩ := List.mem_map.mp h
  have := (List.mem_filter.mp hentry).1
  simp only [List.mem_cons, List.not_mem_nil, or_false] at this
  rcases this with rfl | rfl | rfl <;> simp [EdgeKind.IsMark]

theorem grown_addMark (h : Grown file targets g) {kind : EdgeKind} (sort : kind ≠ .imports) :
    Grown file targets (addMark file g kind) := by
  refine h.link sort ?_
  simp [Graph.holdsEnds, Edge.marker, h.contains_file]

theorem grown_fragment (file : SourceFile) (text : List Char) :
    Grown file (importedModules text) (fragment file text) := by
  have h : Grown file [] file.bareFragment := .bare
  have h := h.foldl (route.occurrences text) fun _ found _ grown => grown_addRoute grown found
  have h := h.foldl (classDeclaration.occurrences text) fun _ found _ grown =>
    grown_addClass grown found
  have h := h.foldl (functions text) fun _ found _ grown => grown_addFunction grown found
  have h := h.foldl (models text) fun _ found _ grown => grown_addModel grown found
  have h := h.addImports (importedModules text)
  have h := h.foldl (marks text) fun _ _ hkind grown => grown_addMark grown
    (isMark_of_mem_marks hkind).ne_imports
  unfold fragment
  split
  · exact h.addOwned .router rfl (Or.inl rfl)
  · exact h

end Script

/-! ## Python files -/

namespace Python

variable {file : SourceFile} {targets : List String} {g : Graph}

/-- A method of a class that is there comes in if it is an endpoint, and the class stays. -/
theorem grown_addMethod (h : Grown file targets g) {name : String}
    (held : g.contains (classId file.path name) = true) (visit : Tree.Visit) :
    Grown file targets (addMethod file name g visit) ∧
      (addMethod file name g visit).contains (classId file.path name) = true := by
  unfold addMethod
  split
  · split
    · dsimp only
      rw [Graph.addNode_addEdge held rfl]
      refine ⟨h.bring (.method name rfl rfl) held, ?_⟩
      simp [Graph.contains_addNode, held]
    · exact ⟨h, held⟩
  · exact ⟨h, held⟩

theorem grown_addClass (h : Grown file targets g) (visit : Tree.Visit) :
    Grown file targets (addClass file g visit) := by
  unfold addClass
  split
  · rename_i name _
    have hclass : Grown file targets (g.addOwned file .uses (classNode file name visit)) :=
      h.addOwned (.class name) rfl (Or.inl rfl)
    have hbases := hclass.addBases
      (Grown.contains_addOwned g file .uses (classNode file name visit)) (namedBases visit.tree)
    -- the class has to stay while its methods come in, since their edges begin there
    exact (List.foldlRecOn (visit.tree.visits []) (addMethod file name)
      (motive := fun g => Grown file targets g ∧ g.contains (classId file.path name) = true) hbases
      fun _ held method _ => grown_addMethod held.1 held.2 method).1
  · exact h

theorem grown_addFunction (h : Grown file targets g) (visit : Tree.Visit) :
    Grown file targets (addFunction file g visit) := by
  unfold addFunction
  split
  · rename_i name isAsync _
    have hfunction : Grown file targets
        (g.addOwned file .uses (functionNode file name isAsync visit)) :=
      h.addOwned (.function name) rfl (Or.inl rfl)
    have held := Grown.contains_addOwned g file .uses (functionNode file name isAsync visit)
    dsimp only
    -- an endpoint gets a second edge, between two nodes that are both there by now
    split
    · have hends : (g.addOwned file .uses (functionNode file name isAsync visit)).holdsEnds
          { source := file.id, target := (functionNode file name isAsync visit).id
            kind := .endpointHandler } = true := by
        rw [Graph.holdsEnds, hfunction.contains_file, held, Bool.and_self]
      rw [Graph.addEdge, if_pos hends]
      exact hfunction.link EdgeKind.noConfusion hends
    · exact hfunction
  · exact h

/-- The edge leads from the node of the file to itself and has the kind of a mark. -/
def IsMark (file : SourceFile) (edge : Edge) : Prop :=
  edge.source = file.id ∧ edge.target = file.id ∧ edge.kind.IsMark

theorem isMark_of_mem_methodMarks {object method : String} {edge : Edge}
    (h : edge ∈ methodMarks file object method) : IsMark file edge := by
  rcases List.mem_append.mp h with h | h
  · split at h
    · rename_i kind hkind
      obtain rfl := List.mem_singleton.mp h
      refine ⟨rfl, rfl, ?_⟩
      unfold databaseUse? at hkind
      split at hkind
      · cases hkind
        exact Or.inr (Or.inl rfl)
      · split at hkind
        · cases hkind
          exact Or.inr (Or.inr rfl)
        · cases hkind
    · cases h
  · split at h
    · obtain rfl := List.mem_singleton.mp h
      exact ⟨rfl, rfl, Or.inl rfl⟩
    · cases h

/-- Every mark leads from the node of the file to itself. -/
theorem isMark_of_mem_marks {tree : Tree} {edge : Edge} (h : edge ∈ marks file tree) :
    IsMark file edge := by
  obtain ⟨call, -, hcall⟩ := List.mem_flatMap.mp h
  unfold callMarks at hcall
  split at hcall
  · split at hcall
    · exact isMark_of_mem_methodMarks hcall
    · split at hcall
      · obtain rfl := List.mem_singleton.mp hcall
        exact ⟨rfl, rfl, Or.inl rfl⟩
      · cases hcall
    · cases hcall
  · cases hcall

theorem grown_fragmentOf (file : SourceFile) (tree : Tree) :
    Grown file (imports tree) (fragmentOf file tree) := by
  have h : Grown file [] file.bareFragment := .bare
  have h := h.foldl (tree.visits []) fun _ visit _ grown => grown_addClass grown visit
  have h := h.foldl (moduleFunctions tree) fun _ visit _ grown => grown_addFunction grown visit
  have h := h.addImports (imports tree)
  refine h.foldl (marks file tree) fun g edge hedge grown => ?_
  obtain ⟨hsource, htarget, hkind⟩ := isMark_of_mem_marks hedge
  refine grown.link hkind.ne_imports ?_
  rw [Graph.holdsEnds, hsource, htarget, grown.contains_file, Bool.and_self]

end Python

/-! ## Every file -/

/-- What a text imports, read as a file of the family. -/
def Language.importTargets (language : Language) (text : List Char) : List String :=
  match language with
  | .python => Python.imports (Python.Tree.ofText text)
  | .script => Script.importedModules text
  | .generic => Generic.importTargets text

/-- **Every fragment grows from the node of its file**, whatever the language and the text. -/
theorem Language.grown_fragment {language : Language} {file : SourceFile} {text : List Char}
    {g : Graph} (h : language.fragment file text = .ok g) :
    Grown file (language.importTargets text) g := by
  cases language with
  | python =>
      simp only [Language.fragment, Python.fragment] at h
      split at h
      · cases h
      · cases h
        exact Python.grown_fragmentOf file _
  | script =>
      cases h
      exact Script.grown_fragment file text
  | generic =>
      cases h
      exact Generic.grown_fragment file text

end Cartograph
