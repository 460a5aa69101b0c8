import Cartograph.Proofs.Fragment.Sorts
import Cartograph.Proofs.Graph.Metadata
import Cartograph.Proofs.Python.Places
import Mathlib.Data.List.Nodup

/-!
# Declarations of a file

The classes of a file, wherever they stand, the functions of its module and the bases that its
classes name are the nodes of these three sorts in its fragment, one for each name. Of several
definitions of one name the node tells what the first in the text says. Main statement:
`Python.declarations_complete`.
-/

namespace Cartograph

namespace Python

/-! ## What stands in a tree -/

namespace Tree

/-- A class of this name stands at the place. -/
def ClassAt (t : Tree) (name : String) (place : List Nat) (visit : Visit) : Prop :=
  t.at? [] place = some visit ∧ visit.tree.form = .classDef name

/-- A function of the module, and of this name, stands at the place. -/
def FunctionAt (t : Tree) (name : String) (place : List Nat) (visit : Visit) : Prop :=
  t.InModule place visit ∧ ∃ isAsync, visit.tree.form = .functionDef name isAsync

/-- A class in the tree has this base, and the base says something. -/
def HasBase (t : Tree) (base : String) : Prop :=
  ∃ name place visit, t.ClassAt name place visit ∧ base ∈ baseNames visit.tree ∧
    base ∉ Signals.ignoredBases

end Tree

/-! ## What a node tells -/

/-- The node tells what the class that stands here says. -/
structure TellsClass (file : SourceFile) (node : Node) (visit : Tree.Visit) : Prop where
  id_eq : node.id = classId file.path node.label
  kind_eq : node.kind = classKind node.label (baseNames visit.tree)
  path_eq : node.path = file.path
  line_eq : node.line = UInt32.ofNat visit.tree.line
  bases : node.fact? "bases" = some (stringList (baseNames visit.tree))
  decorators : node.fact? "decorators" = some (stringList (decoratorNames visit.decorators))

/-- The node tells what the function that stands here says. -/
structure TellsFunction (file : SourceFile) (node : Node) (visit : Tree.Visit) : Prop where
  id_eq : node.id = functionId file.path node.label
  kind_eq : node.kind = functionKind node.label (decoratorNames visit.decorators)
  path_eq : node.path = file.path
  line_eq : node.line = UInt32.ofNat visit.tree.line
  decorators : node.fact? "decorators" = some (stringList (decoratorNames visit.decorators))

variable {file : SourceFile} {visit : Tree.Visit}

theorem tellsClass_classNode (file : SourceFile) (name : String) (visit : Tree.Visit) :
    TellsClass file (classNode file name visit) visit where
  id_eq := rfl
  kind_eq := rfl
  path_eq := rfl
  line_eq := rfl
  bases := by rw [classNode, Node.fact?_note_of_ne _ (by decide), Node.fact?_note]
  decorators := by rw [classNode, Node.fact?_note]

theorem tellsFunction_functionNode (file : SourceFile) (name : String) (isAsync : Bool)
    (visit : Tree.Visit) : TellsFunction file (functionNode file name isAsync visit) visit where
  id_eq := rfl
  kind_eq := rfl
  path_eq := rfl
  line_eq := rfl
  decorators := by rw [functionNode, Node.fact?_note_of_ne _ (by decide), Node.fact?_note]

theorem classNode?_eq_some_iff {node : Node} : classNode? file visit = some node ↔
    visit.tree.form = .classDef node.label ∧ node = classNode file node.label visit := by
  unfold classNode?
  constructor
  · intro h
    split at h
    · cases h
      exact ⟨‹_›, rfl⟩
    · cases h
  · rintro ⟨hform, hnode⟩
    rw [hform]
    exact congrArg some hnode.symm

theorem functionNode?_eq_some_iff {node : Node} : functionNode? file visit = some node ↔
    ∃ isAsync, visit.tree.form = .functionDef node.label isAsync ∧
      node = functionNode file node.label isAsync visit := by
  unfold functionNode?
  constructor
  · intro h
    split at h
    · cases h
      exact ⟨_, ‹_›, rfl⟩
    · cases h
  · rintro ⟨isAsync, hform, hnode⟩
    rw [hform]
    exact congrArg some hnode.symm

/-! ## First definitions -/

/-- What stands here has a node with this identifier. -/
def Gives (node? : Tree.Visit → Option Node) (id : String) (visit : Tree.Visit) : Prop :=
  ∃ node, node? visit = some node ∧ node.id = id

/-- **The first nodes** of what stands at some places are those of the first places: no place before
them gives a node with the same identifier. -/
theorem mem_firsts_iff_firstAt {met : List (List Nat × Tree.Visit)}
    {At : List Nat → Tree.Visit → Prop} (hmem : ∀ place visit, (place, visit) ∈ met ↔ At place visit)
    (hordered : met.Pairwise fun a b => a.1 < b.1) (node? : Tree.Visit → Option Node)
    {node : Node} :
    node ∈ firsts ((met.map Prod.snd).filterMap node?) ↔ ∃ place visit,
      Tree.FirstAt (fun place visit => At place visit ∧ Gives node? node.id visit) place visit ∧
        node? visit = some node := by
  rw [List.filterMap_map, mem_firsts_filterMap_iff, Prod.exists]
  refine exists_congr fun place => exists_congr fun visit => and_congr_left' ?_
  exact Tree.firstWith_iff_firstAt hmem hordered (Gives node? node.id)

/-- A class with this identifier stands where a class of this name stands. -/
theorem gives_classNode?_iff {name : String} :
    Gives (classNode? file) (classId file.path name) visit ↔
      visit.tree.form = .classDef name := by
  constructor
  · rintro ⟨node, hnode, hid⟩
    obtain ⟨hform, hclass⟩ := classNode?_eq_some_iff.mp hnode
    rw [hclass] at hid
    rw [hform, classId_injective hid]
  · intro hform
    exact ⟨classNode file name visit, classNode?_eq_some_iff.mpr ⟨hform, rfl⟩, rfl⟩

/-- A function with this identifier stands where a function of this name stands. -/
theorem gives_functionNode?_iff {name : String} :
    Gives (functionNode? file) (functionId file.path name) visit ↔
      ∃ isAsync, visit.tree.form = .functionDef name isAsync := by
  constructor
  · rintro ⟨node, hnode, hid⟩
    obtain ⟨isAsync, hform, hfunction⟩ := functionNode?_eq_some_iff.mp hnode
    rw [hfunction] at hid
    exact ⟨isAsync, by rw [hform, functionId_injective hid]⟩
  · rintro ⟨isAsync, hform⟩
    exact ⟨functionNode file name isAsync visit,
      functionNode?_eq_some_iff.mpr ⟨isAsync, hform, rfl⟩, rfl⟩

/-! ## The three sorts in a fragment -/

variable {tree : Tree}

theorem nodesOf_fragmentOf {sort : String} (hsort : "file" ≠ sort) :
    (fragmentOf file tree).nodesOf sort
      = firsts ((contents file tree).nodes.filter (Node.isOf sort)) := by
  rw [fragmentOf_eq_put]
  exact file.nodesOf_put hsort _

theorem nodesOf_class (file : SourceFile) (tree : Tree) :
    (fragmentOf file tree).nodesOf "class"
      = firsts (((tree.walk []).map Prod.snd).filterMap (classNode? file)) := by
  rw [nodesOf_fragmentOf (by decide), filter_contents_class, Tree.map_snd_walk]
  rfl

theorem nodesOf_function (file : SourceFile) (tree : Tree) :
    (fragmentOf file tree).nodesOf "func"
      = firsts ((tree.functions.map Prod.snd).filterMap (functionNode? file)) := by
  rw [nodesOf_fragmentOf (by decide), filter_contents_function, Tree.map_snd_functions]
  rfl

/-- The bases that a class puts in, if a class stands here. -/
def basesOf (visit : Tree.Visit) : List String :=
  match visit.tree.form with
  | .classDef _ => namedBases visit.tree
  | _ => []

theorem filter_classContents_classRef (file : SourceFile) (visit : Tree.Visit) :
    (classContents file visit).nodes.filter (Node.isOf "class_ref")
      = (basesOf visit).map Node.classRef := by
  unfold classContents basesOf
  cases visit.tree.form
  case classDef name =>
    have hclass : (Contents.owned file .uses (classNode file name visit)).nodes.filter
        (Node.isOf "class_ref") = [] := by simp [Contents.owned]
    have hbases : ∀ base, (Contents.base (classId file.path name) base).nodes.filter
        (Node.isOf "class_ref") = (some (Node.classRef base)).toList := by simp [Contents.base]
    have hmethods := filter_methodContents file (by decide : "endpoint" ≠ "class_ref") name
    rw [Contents.nodes_append, Contents.nodes_append, List.filter_append, List.filter_append,
      hclass, Contents.filter_nodes_all hbases, Contents.filter_nodes_all_eq_nil hmethods,
      List.nil_append, List.append_nil, List.filterMap_eq_map']
  all_goals rfl

/-- **The bases** are all nodes of classes known by name only. -/
theorem nodesOf_classRef (file : SourceFile) (tree : Tree) :
    (fragmentOf file tree).nodesOf "class_ref"
      = firsts (((tree.visits []).flatMap basesOf).map Node.classRef) := by
  have hclasses : ∀ visits : List Tree.Visit,
      (Contents.all (visits.map (classContents file))).nodes.filter (Node.isOf "class_ref")
        = (visits.flatMap basesOf).map Node.classRef := by
    intro visits
    rw [Contents.nodes_all, List.flatMap_map, List.filter_flatMap, List.map_flatMap]
    exact congrArg visits.flatMap (funext (filter_classContents_classRef file))
  rw [nodesOf_fragmentOf (by decide)]
  simp only [contents, Contents.nodes_append, List.filter_append, Contents.nodes_all_edges,
    hclasses, Contents.filter_nodes_all_eq_nil
      (filter_functionContents file (by decide : "func" ≠ "class_ref")), List.append_nil]

/-! ## All declarations -/

/-- The graph has all that the tree declares, and tells of each name what is said of it first. -/
structure Declares (file : SourceFile) (tree : Tree) (g : Graph) : Prop where
  classes : g.OnePerName "class" fun name => ∃ place visit, tree.ClassAt name place visit
  functions : g.OnePerName "func" fun name => ∃ place visit, tree.FunctionAt name place visit
  bases : g.OnePerName "class_ref" tree.HasBase
  base_ref : ∀ node ∈ g.nodesOf "class_ref", node = Node.classRef node.label
  class_first : ∀ node ∈ g.nodesOf "class", ∃ place visit,
    Tree.FirstAt (tree.ClassAt node.label) place visit ∧ TellsClass file node visit
  function_first : ∀ node ∈ g.nodesOf "func", ∃ place visit,
    Tree.FirstAt (tree.FunctionAt node.label) place visit ∧ TellsFunction file node visit
  class_used : ∀ node ∈ g.nodesOf "class", (file.id, node.id, .uses) ∈ g.edges.toList.map Edge.triple
  function_used : ∀ node ∈ g.nodesOf "func",
    (file.id, node.id, .uses) ∈ g.edges.toList.map Edge.triple

section

variable {g : Graph} {sort : String} {met : List (List Nat × Tree.Visit)}
  {At : List Nat → Tree.Visit → Prop} {node? : Tree.Visit → Option Node}
  {identify : String → String}

/-- Nodes of which the first count are one for each name that is given somewhere. -/
theorem onePerName_of_met (hmem : ∀ place visit, (place, visit) ∈ met ↔ At place visit)
    (hnodes : g.nodesOf sort = firsts ((met.map Prod.snd).filterMap node?))
    (hinj : ∀ {m n}, identify m = identify n → m = n)
    (hid : ∀ {visit node}, node? visit = some node → node.id = identify node.label) :
    g.OnePerName sort fun name =>
      ∃ place visit, At place visit ∧ Gives node? (identify name) visit := by
  refine Graph.onePerName_of_firsts hnodes hinj ?_ fun name => ⟨?_, ?_⟩
  · intro node hnode
    obtain ⟨visit, -, hvisit⟩ := List.mem_filterMap.mp hnode
    exact hid hvisit
  · rintro ⟨node, hnode, rfl⟩
    obtain ⟨visit, hvisit, hgives⟩ := List.mem_filterMap.mp hnode
    obtain ⟨⟨place, visit⟩, hmet, rfl⟩ := List.mem_map.mp hvisit
    exact ⟨place, visit, (hmem place visit).mp hmet, node, hgives, hid hgives⟩
  · rintro ⟨place, visit, hat, node, hgives, heq⟩
    refine ⟨node, List.mem_filterMap.mpr ⟨visit, ?_, hgives⟩, hinj ?_⟩
    · exact List.mem_map.mpr ⟨(place, visit), (hmem place visit).mpr hat, rfl⟩
    · rw [← hid hgives, heq]

/-- The node of a name is that of the first place where the name is given. -/
theorem exists_firstAt_of_met (hmem : ∀ place visit, (place, visit) ∈ met ↔ At place visit)
    (hordered : met.Pairwise fun a b => a.1 < b.1)
    (hnodes : g.nodesOf sort = firsts ((met.map Prod.snd).filterMap node?))
    (hid : ∀ {visit node}, node? visit = some node → node.id = identify node.label) {node : Node}
    (h : node ∈ g.nodesOf sort) :
    ∃ place visit, Tree.FirstAt
      (fun place visit => At place visit ∧ Gives node? (identify node.label) visit) place visit ∧
        node? visit = some node := by
  rw [hnodes, mem_firsts_iff_firstAt hmem hordered] at h
  obtain ⟨place, visit, hfirst, hnode⟩ := h
  exact ⟨place, visit, hid hnode ▸ hfirst, hnode⟩

end

section

variable {node : Node}

theorem tellsClass_of_classNode? (h : classNode? file visit = some node) :
    TellsClass file node visit := by
  rw [(classNode?_eq_some_iff.mp h).2]
  exact tellsClass_classNode file node.label visit

theorem tellsFunction_of_functionNode? (h : functionNode? file visit = some node) :
    TellsFunction file node visit := by
  obtain ⟨isAsync, -, hnode⟩ := functionNode?_eq_some_iff.mp h
  rw [hnode]
  exact tellsFunction_functionNode file node.label isAsync visit

end

theorem onePerName_classes (file : SourceFile) (tree : Tree) :
    (fragmentOf file tree).OnePerName "class" fun name =>
      ∃ place visit, tree.ClassAt name place visit := by
  have h := onePerName_of_met (fun place visit => Tree.mem_walk_iff [] place visit tree)
    (nodesOf_class file tree) classId_injective fun hnode => (tellsClass_of_classNode? hnode).id_eq
  simp only [gives_classNode?_iff] at h
  exact h

theorem onePerName_functions (file : SourceFile) (tree : Tree) :
    (fragmentOf file tree).OnePerName "func" fun name =>
      ∃ place visit, tree.FunctionAt name place visit := by
  have h := onePerName_of_met (fun _ _ => Tree.mem_functions_iff) (nodesOf_function file tree)
    functionId_injective fun hnode => (tellsFunction_of_functionNode? hnode).id_eq
  simp only [gives_functionNode?_iff] at h
  exact h

theorem mem_bases_iff {base : String} :
    base ∈ (tree.visits []).flatMap basesOf ↔ tree.HasBase base := by
  have hbase : ∀ visit, base ∈ basesOf visit ↔ ∃ name, visit.tree.form = .classDef name ∧
      base ∈ baseNames visit.tree ∧ base ∉ Signals.ignoredBases := by
    intro visit
    unfold basesOf
    split
    · rename_i name hform
      rw [namedBases, List.mem_filter, Bool.not_eq_true', ← Bool.not_eq_true, List.contains_iff_mem]
      exact ⟨fun h => ⟨name, hform, h⟩, fun ⟨_, _, h⟩ => h⟩
    · rename_i hother
      exact ⟨nofun, fun ⟨name, hform, _⟩ => absurd hform (hother name)⟩
  rw [← Tree.map_snd_walk, List.mem_flatMap]
  constructor
  · rintro ⟨visit, hvisit, hmem⟩
    obtain ⟨⟨place, visit⟩, hmet, rfl⟩ := List.mem_map.mp hvisit
    obtain ⟨name, hform, hnamed⟩ := (hbase visit).mp hmem
    exact ⟨name, place, visit, ⟨(Tree.mem_walk_iff [] place visit tree).mp hmet, hform⟩, hnamed⟩
  · rintro ⟨name, place, visit, ⟨hat, hform⟩, hnamed⟩
    refine ⟨visit, List.mem_map.mpr ⟨(place, visit), ?_, rfl⟩, (hbase visit).mpr ⟨name, hform, hnamed⟩⟩
    exact (Tree.mem_walk_iff [] place visit tree).mpr hat

theorem onePerName_bases (file : SourceFile) (tree : Tree) :
    (fragmentOf file tree).OnePerName "class_ref" tree.HasBase := by
  refine Graph.onePerName_of_firsts (nodesOf_classRef file tree) classRefId_injective ?_ ?_
  · intro node hnode
    obtain ⟨base, -, rfl⟩ := List.mem_map.mp hnode
    rfl
  · intro base
    rw [← mem_bases_iff]
    constructor
    · rintro ⟨node, hnode, rfl⟩
      obtain ⟨base, hbase, rfl⟩ := List.mem_map.mp hnode
      exact hbase
    · exact fun hbase => ⟨Node.classRef base, List.mem_map_of_mem hbase, rfl⟩

/-! ### Edges from the file -/

theorem edges_fragmentOf (file : SourceFile) (tree : Tree) :
    (fragmentOf file tree).edges.toList = (contents file tree).edges := by
  simp [fragmentOf_eq_put, Graph.put]

theorem uses_class {node : Node} (h : node ∈ (fragmentOf file tree).nodesOf "class") :
    (file.id, node.id, .uses) ∈ (fragmentOf file tree).edges.toList.map Edge.triple := by
  rw [nodesOf_class, Tree.map_snd_walk] at h
  obtain ⟨visit, hvisit, hnode⟩ := List.mem_filterMap.mp (mem_of_mem_firsts h)
  obtain ⟨hform, hclass⟩ := classNode?_eq_some_iff.mp hnode
  have hedge : { source := file.id, target := node.id, kind := .uses }
      ∈ (classContents file visit).edges := by
    rw [classContents, hform, hclass]
    exact List.mem_append_left _ (List.mem_append_left _ (List.mem_singleton_self _))
  rw [edges_fragmentOf]
  refine List.mem_map.mpr ⟨{ source := file.id, target := node.id, kind := .uses }, ?_, rfl⟩
  exact List.mem_append_left _ (List.mem_append_left _ (List.mem_append_left _
    (Contents.mem_edges_all hvisit hedge)))

theorem uses_function {node : Node} (h : node ∈ (fragmentOf file tree).nodesOf "func") :
    (file.id, node.id, .uses) ∈ (fragmentOf file tree).edges.toList.map Edge.triple := by
  rw [nodesOf_function, Tree.map_snd_functions] at h
  obtain ⟨visit, hvisit, hnode⟩ := List.mem_filterMap.mp (mem_of_mem_firsts h)
  obtain ⟨isAsync, hform, hfunction⟩ := functionNode?_eq_some_iff.mp hnode
  have hedge : { source := file.id, target := node.id, kind := .uses }
      ∈ (functionContents file visit).edges := by
    rw [functionContents, hform, hfunction]
    exact List.mem_append_left _ (List.mem_singleton_self _)
  rw [edges_fragmentOf]
  refine List.mem_map.mpr ⟨{ source := file.id, target := node.id, kind := .uses }, ?_, rfl⟩
  exact List.mem_append_left _ (List.mem_append_left _ (List.mem_append_right _
    (Contents.mem_edges_all hvisit hedge)))

/-! ### Main result -/

theorem declares_fragmentOf (file : SourceFile) (tree : Tree) :
    Declares file tree (fragmentOf file tree) where
  classes := onePerName_classes file tree
  functions := onePerName_functions file tree
  bases := onePerName_bases file tree
  base_ref node hnode := by
    rw [nodesOf_classRef] at hnode
    obtain ⟨base, -, rfl⟩ := List.mem_map.mp (mem_of_mem_firsts hnode)
    rfl
  class_first node hnode := by
    obtain ⟨place, visit, hfirst, htells⟩ := exists_firstAt_of_met
      (fun place visit => Tree.mem_walk_iff [] place visit tree) (Tree.pairwise_walk [] tree)
      (nodesOf_class file tree) (fun hnode => (tellsClass_of_classNode? hnode).id_eq) hnode
    simp only [gives_classNode?_iff] at hfirst
    exact ⟨place, visit, hfirst, tellsClass_of_classNode? htells⟩
  function_first node hnode := by
    obtain ⟨place, visit, hfirst, htells⟩ := exists_firstAt_of_met
      (fun _ _ => Tree.mem_functions_iff) (Tree.pairwise_functions tree)
      (nodesOf_function file tree) (fun hnode => (tellsFunction_of_functionNode? hnode).id_eq) hnode
    simp only [gives_functionNode?_iff] at hfirst
    exact ⟨place, visit, hfirst, tellsFunction_of_functionNode? htells⟩
  class_used _ hnode := uses_class hnode
  function_used _ hnode := uses_function hnode

/-- **The declarations of a file are complete**: whatever tree is accepted, there is a fragment, and
it has one node for each class, each function of the module and each base, which tells what the first
definition of the name says. -/
theorem declarations_complete {file : SourceFile} {text : List Char}
    (h : (Tree.ofText text).hasFault = false) :
    ∃ g, fragment file text = .ok g ∧ Declares file (Tree.ofText text) g := by
  refine ⟨fragmentOf file (Tree.ofText text), ?_, declares_fragmentOf file (Tree.ofText text)⟩
  rw [fragment, h]
  rfl

/-- A class that is defined twice, the second time inside a function that is decorated. -/
def twiceDefined : List Char :=
  "class A(B): pass\n@task\ndef f():\n class A(object): pass\n".toList

/-- The class has one node, though it is defined at two depths. -/
theorem declarations_complete_twiceDefined :
    (Tree.ofText twiceDefined).hasFault = false ∧
      ∃ g, fragment (SourceFile.at ["repo"] ["a.py"]) twiceDefined = .ok g ∧
        Declares (SourceFile.at ["repo"] ["a.py"]) (Tree.ofText twiceDefined) g := by
  have hfault : (Tree.ofText twiceDefined).hasFault = false := by cbv
  exact ⟨hfault, declarations_complete hfault⟩

end Python

end Cartograph
