import Cartograph.Proofs.Captures
import Cartograph.Proofs.Fragment.Contents
import Cartograph.Proofs.Python.Grammar

/-!
# Classes and functions of a file

The classes and the functions that a file defines, each with its node, in the order in which they
stand there. A name may be defined again and again. Main statements: these are all nodes with the
identifier of a class or a function that a file puts in (`SourceFile.Holds.filter_class`,
`SourceFile.Holds.filter_function`), and no name among them has a colon
(`SourceFile.Holds.definedBy_class`, `SourceFile.Holds.definedBy_function`), so that the identifier
tells the file and the name.
-/

namespace Cartograph

/-! ## Definitions -/

/-- The nodes of the classes and the functions that a file defines. -/
structure Definitions where
  classes : List Node := []
  functions : List Node := []

namespace Script

/-- The node of a class that was found. -/
def classNode? (file : SourceFile) (found : Pattern.Occurrence) : Option Node :=
  match found.captures with
  | name :: rest => some (classNode file found.line name rest.head?)
  | [] => none

/-- The classes and the functions of a text. -/
def definitions (file : SourceFile) (text : List Char) : Definitions where
  classes := (classDeclaration.occurrences text).filterMap (classNode? file)
  functions := (functions text).map fun found => functionNode file found.1 found.2

end Script

namespace Python

/-- The node of a class, if a class stands here. -/
def classNode? (file : SourceFile) (visit : Tree.Visit) : Option Node :=
  match visit.tree.form with
  | .classDef name => some (classNode file name visit)
  | _ => none

/-- The node of a function, if a function stands here. -/
def functionNode? (file : SourceFile) (visit : Tree.Visit) : Option Node :=
  match visit.tree.form with
  | .functionDef name isAsync => some (functionNode file name isAsync visit)
  | _ => none

/-- The classes anywhere in a file and the functions of its module. -/
def definitions (file : SourceFile) (tree : Tree) : Definitions where
  classes := (tree.visits []).filterMap (classNode? file)
  functions := (moduleFunctions tree).filterMap (functionNode? file)

end Python

/-- The classes and functions of a text, read as a file of the family. -/
def Language.definitions (language : Language) (file : SourceFile) (text : List Char) :
    Definitions :=
  match language with
  | .python =>
    let tree := Python.Tree.ofText text
    if tree.hasFault then {} else Python.definitions file tree
  | .script => Script.definitions file text
  | .generic => {}

/-- The classes and functions of a file; none if it cannot be looked into. -/
def SourceFile.definitions (file : SourceFile) (tree : FileTree) (settings : ExtractionSettings) :
    Definitions :=
  match file.read tree (file.language.readLimit? settings.readLimit) with
  | .ok text => file.language.definitions file text
  | .error _ => {}

/-! ## Nodes of a sort -/

/-- The identifier of the node begins with this sort. -/
def Node.isOf (sort : String) (node : Node) : Bool :=
  sortOf node.id = sort.toList

theorem Node.isOf_of_sortOf {node : Node} {sort : String} (h : sortOf node.id = sort.toList)
    (other : String) : node.isOf other = decide (sort = other) := by
  rw [isOf, h]
  exact decide_eq_decide.mpr String.toList_inj

@[simp] theorem Node.isOf_classRef (base sort : String) :
    (classRef base).isOf sort = decide ("class_ref" = sort) := by
  refine Node.isOf_of_sortOf ?_ sort
  exact sortOf_classRefId base

namespace Script

variable (file : SourceFile) (line : Nat) (name sort : String)

@[simp] theorem isOf_routeNode (verb path : String) :
    (routeNode file line verb path).isOf sort = decide ("endpoint" = sort) := by
  refine Node.isOf_of_sortOf ?_ sort
  exact sortOf_endpointId file.path _

@[simp] theorem isOf_classNode (base : Option String) :
    (classNode file line name base).isOf sort = decide ("class" = sort) := by
  refine Node.isOf_of_sortOf ?_ sort
  exact sortOf_classId file.path name

@[simp] theorem isOf_functionNode :
    (functionNode file line name).isOf sort = decide ("func" = sort) := by
  refine Node.isOf_of_sortOf ?_ sort
  exact sortOf_functionId file.path name

@[simp] theorem isOf_modelNode :
    (modelNode file line name).isOf sort = decide ("model" = sort) := by
  refine Node.isOf_of_sortOf ?_ sort
  exact sortOf_modelId file.path name

@[simp] theorem isOf_routerNode : (routerNode file).isOf sort = decide ("router" = sort) := by
  refine Node.isOf_of_sortOf ?_ sort
  exact sortOf_routerId file.path

end Script

namespace Python

variable (file : SourceFile) (name : String) (visit : Tree.Visit) (sort : String)

@[simp] theorem isOf_classNode :
    (classNode file name visit).isOf sort = decide ("class" = sort) := by
  refine Node.isOf_of_sortOf ?_ sort
  exact sortOf_classId file.path name

@[simp] theorem isOf_methodNode (className : String) :
    (methodNode file className name visit).isOf sort = decide ("endpoint" = sort) := by
  refine Node.isOf_of_sortOf ?_ sort
  exact sortOf_endpointId file.path _

@[simp] theorem isOf_functionNode (isAsync : Bool) :
    (functionNode file name isAsync visit).isOf sort = decide ("func" = sort) := by
  refine Node.isOf_of_sortOf ?_ sort
  exact sortOf_functionId file.path name

end Python

/-! ## Definitions among all that is put in -/

namespace Contents

/-- What passes a test among the nodes that a loop puts in. -/
theorem filter_nodes_all {α : Type} {p : Node → Bool} {part : α → Contents}
    {pick : α → Option Node} (h : ∀ item, (part item).nodes.filter p = (pick item).toList)
    (items : List α) : (all (items.map part)).nodes.filter p = items.filterMap pick := by
  rw [nodes_all, List.flatMap_map, List.filter_flatMap, List.filterMap_eq_flatMap_toList]
  exact congrArg items.flatMap (funext h)

/-- Nothing passes a test among the nodes that a loop puts in if nothing does in one turn. -/
theorem filter_nodes_all_eq_nil {α : Type} {p : Node → Bool} {part : α → Contents}
    (h : ∀ item, (part item).nodes.filter p = []) (items : List α) :
    (all (items.map part)).nodes.filter p = [] := by
  rw [nodes_all, List.flatMap_map, List.filter_flatMap]
  simp [h]

/-- A loop that puts in edges only puts in no node. -/
theorem nodes_all_edges {α : Type} (edges : α → List Edge) (items : List α) :
    (all (items.map fun item => { edges := edges item })).nodes = [] := by
  simp

/-- What passes a test among the edges that a loop puts in. -/
theorem filter_edges_all {α : Type} {p : Edge → Bool} {part : α → Contents} {pick : α → List Edge}
    {items : List α} (h : ∀ item ∈ items, (part item).edges.filter p = pick item) :
    (all (items.map part)).edges.filter p = items.flatMap pick := by
  rw [edges_all, List.flatMap_map, List.filter_flatMap]
  exact List.flatMap_congr h

/-- Nothing passes a test among the edges that a loop puts in if nothing does in one turn. -/
theorem filter_edges_all_eq_nil {α : Type} {p : Edge → Bool} {part : α → Contents} {items : List α}
    (h : ∀ item ∈ items, (part item).edges.filter p = []) :
    (all (items.map part)).edges.filter p = [] := by
  rw [filter_edges_all h]
  simp

end Contents

namespace Script

variable (file : SourceFile) {sort : String}

theorem filter_routeContents (h : "endpoint" ≠ sort) (found : Pattern.Occurrence) :
    (routeContents file found).nodes.filter (Node.isOf sort) = [] := by
  unfold routeContents
  split <;> simp [Contents.owned, h]

theorem filter_classContents_class (found : Pattern.Occurrence) :
    (classContents file found).nodes.filter (Node.isOf "class")
      = (classNode? file found).toList := by
  unfold classContents classNode?
  cases found.captures with
  | nil => rfl
  | cons name rest => cases rest <;> simp [Contents.owned, Contents.base]

theorem filter_classContents (h : "class" ≠ sort) (href : "class_ref" ≠ sort)
    (found : Pattern.Occurrence) :
    (classContents file found).nodes.filter (Node.isOf sort) = [] := by
  unfold classContents
  cases found.captures with
  | nil => rfl
  | cons name rest => cases rest <;> simp [Contents.owned, Contents.base, h, href]

theorem filter_functionContents_function (found : Nat × String) :
    (functionContents file found).nodes.filter (Node.isOf "func")
      = (some (functionNode file found.1 found.2)).toList := by
  simp [functionContents, Contents.owned]

theorem filter_functionContents (h : "func" ≠ sort) (found : Nat × String) :
    (functionContents file found).nodes.filter (Node.isOf sort) = [] := by
  simp [functionContents, Contents.owned, h]

theorem filter_modelContents (h : "model" ≠ sort) (found : Nat × String) :
    (modelContents file found).nodes.filter (Node.isOf sort) = [] := by
  simp [modelContents, Contents.owned, h]

/-- The classes are all nodes with the identifier of a class. -/
theorem filter_contents_class (text : List Char) :
    (contents file text).nodes.filter (Node.isOf "class") = (definitions file text).classes := by
  simp only [contents, Contents.nodes_append, List.filter_append, Contents.nodes_all_edges,
    Contents.filter_nodes_all (filter_classContents_class file),
    Contents.filter_nodes_all_eq_nil (filter_routeContents file (by decide : "endpoint" ≠ "class")),
    Contents.filter_nodes_all_eq_nil (filter_functionContents file (by decide : "func" ≠ "class")),
    Contents.filter_nodes_all_eq_nil (filter_modelContents file (by decide : "model" ≠ "class"))]
  split <;> simp [Contents.owned, definitions]

/-- Where no import and no mark passes a test, the entities put in all edges that pass in a file. -/
theorem filter_edges_contents_of_entities {file : SourceFile} {p : Edge → Bool}
    (himports : ∀ target, p (importEdge file target) = false)
    (hmarks : ∀ kind : EdgeKind, kind.IsMark → p (Edge.marker file.id kind) = false)
    (text : List Char) :
    (contents file text).edges.filter p
      = (route.occurrences text).flatMap (fun found => (routeContents file found).edges.filter p)
        ++ (classDeclaration.occurrences text).flatMap
          (fun found => (classContents file found).edges.filter p)
        ++ (functions text).flatMap (fun found => (functionContents file found).edges.filter p)
        ++ (models text).flatMap (fun found => (modelContents file found).edges.filter p)
        ++ (if routerSetUp.occursIn text then Contents.owned file .uses (routerNode file)
            else {}).edges.filter p := by
  have himports : ∀ target ∈ importedModules text,
      ({ edges := [importEdge file target] } : Contents).edges.filter p = [] := by
    intro target _
    rw [List.filter_singleton, himports, cond_false]
  have hmarks : ∀ kind ∈ marks text,
      ({ edges := [Edge.marker file.id kind] } : Contents).edges.filter p = [] := by
    intro kind hkind
    rw [List.filter_singleton, hmarks kind (isMark_of_mem_marks hkind), cond_false]
  simp only [contents, Contents.edges_append, List.filter_append,
    Contents.filter_edges_all_eq_nil himports, Contents.filter_edges_all_eq_nil hmarks,
    Contents.filter_edges_all fun _ _ => rfl, List.append_nil]

/-- The functions are all nodes with the identifier of a function. -/
theorem filter_contents_function (text : List Char) :
    (contents file text).nodes.filter (Node.isOf "func") = (definitions file text).functions := by
  simp only [contents, Contents.nodes_append, List.filter_append, Contents.nodes_all_edges,
    Contents.filter_nodes_all (filter_functionContents_function file),
    Contents.filter_nodes_all_eq_nil (filter_routeContents file (by decide : "endpoint" ≠ "func")),
    Contents.filter_nodes_all_eq_nil
      (filter_classContents file (by decide : "class" ≠ "func") (by decide)),
    Contents.filter_nodes_all_eq_nil (filter_modelContents file (by decide : "model" ≠ "func"))]
  split <;> simp [Contents.owned, definitions]

end Script

namespace Python

variable (file : SourceFile) {sort : String}

theorem filter_methodContents (h : "endpoint" ≠ sort) (className : String) (visit : Tree.Visit) :
    (methodContents file className visit).nodes.filter (Node.isOf sort) = [] := by
  unfold methodContents
  split
  · split <;> simp [h]
  · rfl

theorem filter_classContents_class (visit : Tree.Visit) :
    (classContents file visit).nodes.filter (Node.isOf "class")
      = (classNode? file visit).toList := by
  have hmethods : ∀ className method,
      (methodContents file className method).nodes.filter (Node.isOf "class") = [] :=
    filter_methodContents file (by decide)
  unfold classContents classNode?
  cases visit.tree.form
  case classDef name =>
    simp [Contents.owned, Contents.base, List.filter_flatMap, List.flatMap_map, hmethods]
  all_goals rfl

theorem filter_classContents (h : "class" ≠ sort) (href : "class_ref" ≠ sort)
    (hendpoint : "endpoint" ≠ sort) (visit : Tree.Visit) :
    (classContents file visit).nodes.filter (Node.isOf sort) = [] := by
  unfold classContents
  cases visit.tree.form
  case classDef name =>
    simp [Contents.owned, Contents.base, List.filter_flatMap, List.flatMap_map, h, href,
      filter_methodContents file hendpoint]
  all_goals rfl

theorem filter_functionContents_function (visit : Tree.Visit) :
    (functionContents file visit).nodes.filter (Node.isOf "func")
      = (functionNode? file visit).toList := by
  unfold functionContents functionNode?
  cases visit.tree.form
  case functionDef name isAsync =>
    dsimp only
    split <;> simp [Contents.owned]
  all_goals rfl

theorem filter_functionContents (h : "func" ≠ sort) (visit : Tree.Visit) :
    (functionContents file visit).nodes.filter (Node.isOf sort) = [] := by
  unfold functionContents
  cases visit.tree.form
  case functionDef name isAsync =>
    dsimp only
    split <;> simp [Contents.owned, h]
  all_goals rfl

/-- The classes are all nodes with the identifier of a class. -/
theorem filter_contents_class (tree : Tree) :
    (contents file tree).nodes.filter (Node.isOf "class") = (definitions file tree).classes := by
  simp only [contents, Contents.nodes_append, List.filter_append, Contents.nodes_all_edges,
    Contents.filter_nodes_all (filter_classContents_class file),
    Contents.filter_nodes_all_eq_nil (filter_functionContents file (by decide : "func" ≠ "class"))]
  simp [definitions]

/-- Where no edge but those of classes passes a test, these are all that pass in a file. -/
theorem filter_edges_contents_of_classes {file : SourceFile} {p : Edge → Bool}
    {pick : Tree.Visit → List Edge}
    (hclasses : ∀ visit, (classContents file visit).edges.filter p = pick visit)
    (hfunctions : ∀ visit, (functionContents file visit).edges.filter p = [])
    (himports : ∀ target, p (importEdge file target) = false)
    (hmarks : ∀ edge, IsMark file edge → p edge = false) {tree : Tree} :
    (contents file tree).edges.filter p = (tree.visits []).flatMap pick := by
  have himports : ∀ target ∈ imports tree,
      ({ edges := [importEdge file target] } : Contents).edges.filter p = [] := by
    intro target _
    rw [List.filter_singleton, himports, cond_false]
  have hmarks : ∀ edge ∈ marks file tree,
      ({ edges := [edge] } : Contents).edges.filter p = [] := by
    intro edge hedge
    rw [List.filter_singleton, hmarks edge (isMark_of_mem_marks hedge), cond_false]
  simp only [contents, Contents.edges_append, List.filter_append,
    Contents.filter_edges_all fun visit _ => hclasses visit,
    Contents.filter_edges_all_eq_nil fun visit _ => hfunctions visit,
    Contents.filter_edges_all_eq_nil himports, Contents.filter_edges_all_eq_nil hmarks,
    List.append_nil]

/-- The functions are all nodes with the identifier of a function. -/
theorem filter_contents_function (tree : Tree) :
    (contents file tree).nodes.filter (Node.isOf "func") = (definitions file tree).functions := by
  simp only [contents, Contents.nodes_append, List.filter_append, Contents.nodes_all_edges,
    Contents.filter_nodes_all (filter_functionContents_function file),
    Contents.filter_nodes_all_eq_nil
      (filter_classContents file (by decide : "class" ≠ "func") (by decide) (by decide))]
  simp [definitions]

end Python

/-! ## Files of every language -/

/-- What a file may put in, together with its classes and functions. -/
inductive SourceFile.Holds (file : SourceFile) : Contents → Definitions → Prop
  | nothing : Holds file {} {}
  | python {tree : Python.Tree} (language : file.language = .python) (named : tree.Named) :
      Holds file (Python.contents file tree) (Python.definitions file tree)
  | script {text : List Char} (language : file.language = .script) :
      Holds file (Script.contents file text) (Script.definitions file text)
  | generic {text : List Char} : Holds file (Generic.contents file text) {}

namespace SourceFile

section

variable (file : SourceFile) (tree : FileTree) (settings : ExtractionSettings)

theorem holds : file.Holds (file.contents tree settings) (file.definitions tree settings) := by
  unfold contents definitions
  cases file.read tree (file.language.readLimit? settings.readLimit) with
  | error e => exact .nothing
  | ok text =>
      cases hlanguage : file.language with
      | python =>
          simp only [Language.contents, Language.definitions]
          split
          · exact .nothing
          · exact .python hlanguage (Python.Tree.named_ofText text)
      | script => exact .script hlanguage
      | generic => exact .generic

variable {file tree} {text : List Char}

/-- A Python file that can be read and has no fault puts in what its tree has. -/
theorem contents_of_python (hlanguage : file.language = .python)
    (hread : file.read tree none = .ok text) (hwell : (Python.Tree.ofText text).hasFault = false) :
    file.contents tree settings = Python.contents file (.ofText text) := by
  have hlimit : Language.python.readLimit? settings.readLimit = none := rfl
  rw [contents, hlanguage, hlimit, hread]
  exact if_neg (by rw [hwell]; exact Bool.false_ne_true)

end

variable {file : SourceFile} {contents : Contents} {definitions : Definitions}

end SourceFile

/-! ## Names without colons -/

/-- The node is at the path of the file and has a label without colons, and the two make up its
identifier. -/
structure Node.DefinedBy (identify : String → String → String) (file : SourceFile) (node : Node) :
    Prop where
  id_eq : node.id = identify node.path node.label
  path_eq : node.path = file.path
  colonFree : ':' ∉ node.label.toList

namespace Script

variable {file : SourceFile} {text : List Char} {n : Node}

theorem definedBy_class (h : n ∈ (definitions file text).classes) : n.DefinedBy classId file := by
  obtain ⟨found, hfound, hn⟩ := List.mem_filterMap.mp h
  unfold classNode? at hn
  split at hn
  · rename_i name rest hcaptures
    cases hn
    have hname : Pattern.Allows Text.isWord name :=
      allows_of_classDeclaration hfound name (by rw [hcaptures]; exact List.mem_cons_self)
    exact ⟨rfl, rfl, hname.not_mem_colon⟩
  · cases hn

/-- Keeping the finds whose names are free adds none. -/
theorem mem_of_mem_unclaimed {taken : Std.HashSet String} {found : Nat × String}
    {all : List (Nat × String)} (h : found ∈ unclaimed taken all) : found ∈ all := by
  fun_induction unclaimed with
  | case1 => cases h
  | case2 taken line name rest _ ih => exact List.mem_cons_of_mem _ (ih h)
  | case3 taken line name rest _ ih =>
      rcases List.mem_cons.mp h with rfl | h
      · exact List.mem_cons_self
      · exact List.mem_cons_of_mem _ (ih h)

theorem definedBy_function (h : n ∈ (definitions file text).functions) :
    n.DefinedBy functionId file := by
  obtain ⟨found, hfound, rfl⟩ := List.mem_map.mp h
  obtain ⟨shape, hshape, hcaptured⟩ := List.mem_flatMap.mp (mem_of_mem_unclaimed hfound)
  exact ⟨rfl, rfl, (allows_of_functionShapes hshape hcaptured).not_mem_colon⟩

end Script

namespace Python

variable {file : SourceFile} {tree : Tree} {n : Node}

theorem not_mem_colon {name : String} (h : Text.isIdentifier name = true) : ':' ∉ name.toList :=
  Text.not_mem_of_isIdentifier h Text.isIdentifierPart_colon

theorem definedBy_class (named : tree.Named) (h : n ∈ (definitions file tree).classes) :
    n.DefinedBy classId file := by
  obtain ⟨visit, hvisit, hn⟩ := List.mem_filterMap.mp h
  have hform : visit.tree.form.Named := (Tree.named_of_mem_visits named hvisit).form
  unfold classNode? at hn
  split at hn
  · rename_i name hclass
    cases hn
    exact ⟨rfl, rfl, not_mem_colon (hform.1 name hclass)⟩
  · cases hn

/-- The functions of a module are parts of a tree or parts of its parts. -/
theorem named_of_mem_moduleFunctions (named : tree.Named) {visit : Tree.Visit}
    (h : visit ∈ moduleFunctions tree) : visit.tree.Named := by
  obtain ⟨part, hpart, hvisit⟩ := List.mem_filterMap.mp h
  have hnamed : part.Named := named.parts.named hpart
  split at hvisit
  · cases hvisit
    exact hnamed
  · obtain ⟨p, hp, rfl⟩ := Option.map_eq_some_iff.mp hvisit
    exact hnamed.parts.named (List.mem_of_find?_eq_some hp)
  · cases hvisit

theorem definedBy_function (named : tree.Named) (h : n ∈ (definitions file tree).functions) :
    n.DefinedBy functionId file := by
  obtain ⟨visit, hvisit, hn⟩ := List.mem_filterMap.mp h
  have hform : visit.tree.form.Named := (named_of_mem_moduleFunctions named hvisit).form
  unfold functionNode? at hn
  split at hn
  · rename_i name isAsync hfunction
    cases hn
    exact ⟨rfl, rfl, not_mem_colon (hform.2 name isAsync hfunction)⟩
  · cases hn

end Python

namespace SourceFile

variable {file : SourceFile} {contents : Contents} {definitions : Definitions} {n : Node}

/-- **The identifier of a class** tells its file and its name, which has no colon. -/
theorem Holds.definedBy_class (h : file.Holds contents definitions) (hn : n ∈ definitions.classes) :
    n.DefinedBy classId file := by
  cases h with
  | nothing => cases hn
  | python _ named => exact Python.definedBy_class named hn
  | script _ => exact Script.definedBy_class hn
  | generic => cases hn

/-- **The identifier of a function** tells its file and its name, which has no colon. -/
theorem Holds.definedBy_function (h : file.Holds contents definitions)
    (hn : n ∈ definitions.functions) : n.DefinedBy functionId file := by
  cases h with
  | nothing => cases hn
  | python _ named => exact Python.definedBy_function named hn
  | script _ => exact Script.definedBy_function hn
  | generic => cases hn

end SourceFile

end Cartograph
