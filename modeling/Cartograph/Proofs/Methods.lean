import Cartograph.Proofs.Definitions

/-!
# Methods of nested classes

A class has all endpoints in it as its methods, those of a class in it as well. So an endpoint in
nested classes stands in the graph once for every class around it, under the name of that class, and
not only for the innermost one. Main statements: what becomes of the endpoints of any file
(`endpoints_of_classes_around`), and a file in which an outer class has the method of an inner one
(`method_of_inner_class`).
-/

namespace Cartograph.Python

/-! ## Walking with the classes around -/

/-- The names of the classes around what is in a form, the innermost first. -/
def Form.inside (around : List String) : Form → List String
  | .classDef c => c :: around
  | _ => around

theorem Form.mem_inside_iff {around : List String} {form : Form} {c : String} :
    c ∈ form.inside around ↔ form = .classDef c ∨ c ∈ around := by
  cases form <;> simp [inside, eq_comm]

namespace Tree

mutual

/-- The walk over a tree, with the names of the classes around everything that it meets. -/
def visitsWithin (around : List String) (decorators : List Tree) :
    Tree → List (List String × Visit)
  | .node form line parts =>
    (around, ⟨decorators, .node form line parts⟩) ::
      visitsAllWithin (form.inside around) (decoratorsFor form parts) parts

/-- The walks over some parts, one after the other. -/
def visitsAllWithin (around : List String) (decorators : List Tree) :
    List Tree → List (List String × Visit)
  | [] => []
  | part :: rest => visitsWithin around decorators part ++ visitsAllWithin around decorators rest

end

mutual

/-- The classes around something on a walk are those that were around the walk from the start, and
those which meet it on a walk of their own. -/
theorem exists_mem_visitsWithin_iff {c : String} {visit : Visit}
    (hvisit : visit.tree.form ≠ .classDef c) (around : List String) (decorators : List Tree) :
    ∀ t : Tree, (∃ a, (a, visit) ∈ t.visitsWithin around decorators ∧ c ∈ a) ↔
      c ∈ around ∧ visit ∈ t.visits decorators ∨
        ∃ outer ∈ t.visits decorators, outer.tree.form = .classDef c ∧
          visit ∈ outer.tree.visits []
  | .node form line parts => by
      have hparts := exists_mem_visitsAllWithin_iff hvisit (form.inside around)
        (decoratorsFor form parts) parts
      -- what a class meets on a walk of its own is what the walk meets in it, but for itself
      have hown : form = .classDef c → (visit ∈ (Tree.node form line parts).visits [] ↔
          visit ∈ visitsAll (decoratorsFor form parts) parts) := by
        intro hclass
        rw [visits, List.mem_cons, or_iff_right]
        rintro rfl
        exact hvisit hclass
      rw [visitsWithin, visits]
      simp only [List.mem_cons]
      constructor
      · rintro ⟨a, heq | hmem, hc⟩
        · obtain ⟨rfl, rfl⟩ := Prod.mk.inj heq
          exact Or.inl ⟨hc, Or.inl rfl⟩
        · rcases hparts.mp ⟨a, hmem, hc⟩ with ⟨hinside, hmem⟩ | ⟨outer, houter, hin⟩
          · rcases Form.mem_inside_iff.mp hinside with hclass | haround
            · exact Or.inr ⟨_, Or.inl rfl, hclass, (hown hclass).mpr hmem⟩
            · exact Or.inl ⟨haround, Or.inr hmem⟩
          · exact Or.inr ⟨outer, Or.inr houter, hin⟩
      · -- something in the form is met on the walks over its parts, whichever class is around it
        rintro (⟨haround, rfl | hmem⟩ | ⟨outer, rfl | houter, hclass, hmem⟩)
        · exact ⟨around, Or.inl rfl, haround⟩
        · obtain ⟨a, ha, hc⟩ := hparts.mpr (Or.inl ⟨Form.mem_inside_iff.mpr (Or.inr haround), hmem⟩)
          exact ⟨a, Or.inr ha, hc⟩
        · obtain ⟨a, ha, hc⟩ := hparts.mpr
            (Or.inl ⟨Form.mem_inside_iff.mpr (Or.inl hclass), (hown hclass).mp hmem⟩)
          exact ⟨a, Or.inr ha, hc⟩
        · obtain ⟨a, ha, hc⟩ := hparts.mpr (Or.inr ⟨outer, houter, hclass, hmem⟩)
          exact ⟨a, Or.inr ha, hc⟩

theorem exists_mem_visitsAllWithin_iff {c : String} {visit : Visit}
    (hvisit : visit.tree.form ≠ .classDef c) (around : List String) (decorators : List Tree) :
    ∀ ts : List Tree, (∃ a, (a, visit) ∈ visitsAllWithin around decorators ts ∧ c ∈ a) ↔
      c ∈ around ∧ visit ∈ visitsAll decorators ts ∨
        ∃ outer ∈ visitsAll decorators ts, outer.tree.form = .classDef c ∧
          visit ∈ outer.tree.visits []
  | [] => by simp [visitsAllWithin, visitsAll]
  | part :: rest => by
      simp only [visitsAllWithin, visitsAll, List.mem_append, or_and_right, exists_or, and_or_left,
        exists_mem_visitsWithin_iff hvisit around decorators part,
        exists_mem_visitsAllWithin_iff hvisit around decorators rest]
      exact or_or_or_comm

end

end Tree

/-! ## Endpoints and the classes around them -/

/-- The name of the endpoint, if a function stands here that is one. -/
def endpointName? (visit : Tree.Visit) : Option String :=
  match visit.tree.form with
  | .functionDef name _ =>
    if anyOf (decoratorNames visit.decorators) Signals.endpointDecorators then some name else none
  | _ => none

theorem ne_classDef_of_endpointName? {visit : Tree.Visit} {name : String}
    (h : endpointName? visit = some name) (c : String) : visit.tree.form ≠ .classDef c := by
  intro hclass
  rw [endpointName?, hclass] at h
  cases h

/-- A function that is an endpoint, with the names of the classes around it, the innermost first. -/
structure Endpoint where
  around : List String
  name : String

/-- The endpoints in a tree, in the order of the text. -/
def Tree.endpoints (t : Tree) : List Endpoint :=
  (t.visitsWithin [] []).filterMap fun met => (endpointName? met.2).map fun name => ⟨met.1, name⟩

theorem Tree.mem_endpoints_iff {t : Tree} {e : Endpoint} : e ∈ t.endpoints ↔
    ∃ visit, (e.around, visit) ∈ t.visitsWithin [] [] ∧ endpointName? visit = some e.name := by
  rw [endpoints, List.mem_filterMap]
  constructor
  · rintro ⟨⟨around, visit⟩, hvisit, hmap⟩
    obtain ⟨name, hname, rfl⟩ := Option.map_eq_some_iff.mp hmap
    exact ⟨visit, hvisit, hname⟩
  · rintro ⟨visit, hvisit, hname⟩
    refine ⟨(e.around, visit), hvisit, ?_⟩
    rw [hname]
    rfl

/-! ## What classes put in -/

/-- An endpoint that a class has as a method. -/
structure ClassMethod where
  className : String
  name : String
  visit : Tree.Visit

/-- The node of the endpoint. -/
def ClassMethod.node (file : SourceFile) (m : ClassMethod) : Node :=
  methodNode file m.className m.name m.visit

/-- The edge from the class to the endpoint. -/
def ClassMethod.edge (file : SourceFile) (m : ClassMethod) : Edge where
  source := classId file.path m.className
  target := endpointId file.path (m.className ++ "." ++ m.name)
  kind := .endpointHandler

/-- The methods of a class, if one stands here: all endpoints that it meets on a walk of its own. -/
def classMethods (outer : Tree.Visit) : List ClassMethod :=
  match outer.tree.form with
  | .classDef c => (outer.tree.visits []).filterMap fun visit =>
      (endpointName? visit).map fun name => ⟨c, name, visit⟩
  | _ => []

theorem mem_classMethods_iff {outer : Tree.Visit} {m : ClassMethod} : m ∈ classMethods outer ↔
    outer.tree.form = .classDef m.className ∧ m.visit ∈ outer.tree.visits [] ∧
      endpointName? m.visit = some m.name := by
  unfold classMethods
  cases outer.tree.form
  case classDef c =>
    simp only [List.mem_filterMap, Option.map_eq_some_iff, Form.classDef.injEq]
    constructor
    · rintro ⟨visit, hvisit, name, hname, rfl⟩
      exact ⟨rfl, hvisit, hname⟩
    · rintro ⟨rfl, hvisit, hname⟩
      exact ⟨m.visit, hvisit, m.name, hname, rfl⟩
  all_goals simp

/-- The methods of all classes in a tree. -/
def Tree.methods (t : Tree) : List ClassMethod :=
  (t.visits []).flatMap classMethods

/-- **A class has the endpoints that it is around as methods**, however many other classes are in
between. -/
theorem Tree.exists_mem_methods_iff {t : Tree} {p : String → String → Prop} :
    (∃ m ∈ t.methods, p m.className m.name) ↔ ∃ e ∈ t.endpoints, ∃ c ∈ e.around, p c e.name := by
  simp only [methods, List.mem_flatMap, mem_classMethods_iff]
  constructor
  · rintro ⟨m, ⟨outer, houter, hclass, hvisit, hname⟩, hp⟩
    obtain ⟨around, hmet, hc⟩ :=
      (exists_mem_visitsWithin_iff (ne_classDef_of_endpointName? hname m.className) [] [] t).mpr
        (Or.inr ⟨outer, houter, hclass, hvisit⟩)
    exact ⟨⟨around, m.name⟩, mem_endpoints_iff.mpr ⟨m.visit, hmet, hname⟩, m.className, hc, hp⟩
  · rintro ⟨e, he, c, hc, hp⟩
    obtain ⟨visit, hmet, hname⟩ := mem_endpoints_iff.mp he
    rcases (exists_mem_visitsWithin_iff (ne_classDef_of_endpointName? hname c) [] [] t).mp
      ⟨e.around, hmet, hc⟩ with ⟨hnone, -⟩ | ⟨outer, houter, hclass, hvisit⟩
    · cases hnone
    · exact ⟨⟨c, e.name, visit⟩, ⟨outer, houter, hclass, hvisit, hname⟩, hp⟩

section

variable {file : SourceFile} {tree : Tree}

/-- An endpoint is put in together with the edge to it. -/
theorem methodContents_eq (c : String) (visit : Tree.Visit) : methodContents file c visit =
    match endpointName? visit with
    | some name => { nodes := [ClassMethod.node file ⟨c, name, visit⟩]
                     edges := [ClassMethod.edge file ⟨c, name, visit⟩] }
    | none => {} := by
  unfold methodContents endpointName?
  cases visit.tree.form
  case functionDef name isAsync =>
    dsimp only
    split <;> rfl
  all_goals rfl

/-- The nodes of its methods are all that a class puts in with the identifier of an endpoint. -/
theorem filter_classContents_endpoint (outer : Tree.Visit) :
    (classContents file outer).nodes.filter (Node.isOf "endpoint")
      = (classMethods outer).map (ClassMethod.node file) := by
  have hmethods : ∀ c visit, (methodContents file c visit).nodes.filter (Node.isOf "endpoint")
      = ((endpointName? visit).map fun name => ClassMethod.node file ⟨c, name, visit⟩).toList := by
    intro c visit
    rw [methodContents_eq]
    cases endpointName? visit <;> simp [ClassMethod.node]
  unfold classContents classMethods
  cases outer.tree.form
  case classDef c =>
    rw [List.map_filterMap, List.filterMap_eq_flatMap_toList]
    simp [Contents.owned, Contents.base, List.filter_flatMap, List.flatMap_map, hmethods,
      Function.comp_def]
  all_goals rfl

/-- The edge leads from a class to a handler. -/
def leadsFromClass (edge : Edge) : Bool :=
  edge.kind = .endpointHandler && sortOf edge.source = "class".toList

/-- The edges to its methods are all that a class puts in from a class to a handler. -/
theorem filter_classContents_handler (outer : Tree.Visit) :
    (classContents file outer).edges.filter leadsFromClass
      = (classMethods outer).map (ClassMethod.edge file) := by
  have hmethods : ∀ c visit, (methodContents file c visit).edges.filter leadsFromClass
      = ((endpointName? visit).map fun name => ClassMethod.edge file ⟨c, name, visit⟩).toList := by
    intro c visit
    rw [methodContents_eq]
    cases endpointName? visit <;> simp [leadsFromClass, ClassMethod.edge]
  unfold classContents classMethods
  cases outer.tree.form
  case classDef c =>
    rw [List.map_filterMap, List.filterMap_eq_flatMap_toList]
    simp [Contents.owned, Contents.base, List.filter_flatMap, List.flatMap_map, hmethods,
      leadsFromClass, Function.comp_def]
  all_goals rfl

/-- **The endpoints of a file** are the methods of its classes. -/
theorem filter_contents_endpoint : (contents file tree).nodes.filter (Node.isOf "endpoint")
    = tree.methods.map (ClassMethod.node file) := by
  have hfunctions : ∀ visit,
      (functionContents file visit).nodes.filter (Node.isOf "endpoint") = [] :=
    filter_functionContents file (by decide)
  simp [contents, Tree.methods, List.filter_flatMap, List.flatMap_map, List.map_flatMap,
    filter_classContents_endpoint, hfunctions]

/-- **The edges from classes to handlers** are those to their methods. -/
theorem filter_contents_handler : (contents file tree).edges.filter leadsFromClass
    = tree.methods.map (ClassMethod.edge file) := by
  have hfunctions : ∀ visit, (functionContents file visit).edges.filter leadsFromClass = [] := by
    intro visit
    unfold functionContents
    cases visit.tree.form
    case functionDef name isAsync =>
      dsimp only
      split <;> simp [Contents.owned, leadsFromClass, SourceFile.id]
    all_goals rfl
  have hmarks : ∀ edge, IsMark file edge → leadsFromClass edge = false := by
    rintro edge ⟨-, -, hmark⟩
    simp [leadsFromClass, hmark.ne (by decide : ¬ EdgeKind.endpointHandler.IsMark)]
  rw [filter_edges_contents_of_classes filter_classContents_handler hfunctions (fun _ => rfl)
    hmarks, Tree.methods, List.map_flatMap]

/-! ## Fragments -/

/-- An endpoint stands in the graph for every class around it, under the name of that class. -/
structure ForAllAround (file : SourceFile) (tree : Tree) (g : Graph) : Prop where
  contains_iff : ∀ id, sortOf id = "endpoint".toList → (g.contains id = true ↔
    ∃ e ∈ tree.endpoints, ∃ c ∈ e.around, id = endpointId file.path (c ++ "." ++ e.name))
  handler_iff : ∀ c target, (classId file.path c, target, EdgeKind.endpointHandler) ∈
    g.edges.toList.map Edge.triple ↔ ∃ e ∈ tree.endpoints, c ∈ e.around ∧
      target = endpointId file.path (c ++ "." ++ e.name)

/-- An endpoint stands in the graph for its innermost class only, under the name of that class. -/
structure ForInnermost (file : SourceFile) (tree : Tree) (g : Graph) : Prop where
  contains_iff : ∀ id, sortOf id = "endpoint".toList → (g.contains id = true ↔
    ∃ e ∈ tree.endpoints, ∃ c, e.around.head? = some c ∧
      id = endpointId file.path (c ++ "." ++ e.name))
  handler : ∀ c target, (classId file.path c, target, EdgeKind.endpointHandler) ∈
    g.edges.toList.map Edge.triple → ∃ e ∈ tree.endpoints, e.around.head? = some c ∧
      target = endpointId file.path (c ++ "." ++ e.name)

/-- Every class around an endpoint is the innermost one around an endpoint of that name. -/
def Tree.OwnedByAllAround (t : Tree) : Prop :=
  ∀ e ∈ t.endpoints, ∀ c ∈ e.around,
    ∃ own ∈ t.endpoints, own.around.head? = some c ∧ own.name = e.name

theorem contains_fragmentOf_iff {id : String} (h : sortOf id = "endpoint".toList) :
    (fragmentOf file tree).contains id = true ↔
      ∃ m ∈ tree.methods, id = endpointId file.path (m.className ++ "." ++ m.name) := by
  have hfile : file.bareFragment.contains id ≠ true := by
    rw [SourceFile.bareFragment, Graph.contains_addNode, Graph.contains_empty, Bool.false_or]
    intro hid
    rw [← eq_of_beq hid, SourceFile.node, SourceFile.id, sortOf_fileId] at h
    exact absurd h (by decide)
  rw [fragmentOf_eq_put, Graph.contains_put_iff, or_iff_right hfile]
  constructor
  · rintro ⟨n, hn, rfl⟩
    have hmem : n ∈ (contents file tree).nodes.filter (Node.isOf "endpoint") :=
      List.mem_filter.mpr ⟨hn, decide_eq_true h⟩
    rw [filter_contents_endpoint] at hmem
    obtain ⟨m, hm, rfl⟩ := List.mem_map.mp hmem
    exact ⟨m, hm, rfl⟩
  · rintro ⟨m, hm, rfl⟩
    have hmem : m.node file ∈ (contents file tree).nodes.filter (Node.isOf "endpoint") := by
      rw [filter_contents_endpoint]
      exact List.mem_map_of_mem hm
    exact ⟨m.node file, (List.mem_filter.mp hmem).1, rfl⟩

theorem handler_mem_fragmentOf_iff {c target : String} :
    (classId file.path c, target, EdgeKind.endpointHandler) ∈
        (fragmentOf file tree).edges.toList.map Edge.triple ↔
      ∃ m ∈ tree.methods, m.className = c ∧
        target = endpointId file.path (m.className ++ "." ++ m.name) := by
  have hedges : (fragmentOf file tree).edges.toList = (contents file tree).edges := by
    simp [fragmentOf_eq_put, Graph.put]
  rw [hedges, List.mem_map]
  constructor
  · rintro ⟨edge, hedge, htriple⟩
    simp only [Edge.triple, Prod.mk.injEq] at htriple
    obtain ⟨hsource, rfl, hkind⟩ := htriple
    have hmem : edge ∈ (contents file tree).edges.filter leadsFromClass :=
      List.mem_filter.mpr ⟨hedge, by simp [leadsFromClass, hsource, hkind]⟩
    rw [filter_contents_handler] at hmem
    obtain ⟨m, hm, rfl⟩ := List.mem_map.mp hmem
    exact ⟨m, hm, classId_injective hsource, rfl⟩
  · rintro ⟨m, hm, rfl, rfl⟩
    have hmem : m.edge file ∈ (contents file tree).edges.filter leadsFromClass := by
      rw [filter_contents_handler]
      exact List.mem_map_of_mem hm
    exact ⟨m.edge file, (List.mem_filter.mp hmem).1, rfl⟩

/-- Every class around an endpoint has it as a method. -/
theorem forAllAround_fragmentOf : ForAllAround file tree (fragmentOf file tree) where
  contains_iff id h := by
    rw [contains_fragmentOf_iff h]
    exact Tree.exists_mem_methods_iff
      (p := fun c name => id = endpointId file.path (c ++ "." ++ name))
  handler_iff c target := by
    rw [handler_mem_fragmentOf_iff, Tree.exists_mem_methods_iff
      (p := fun d name => d = c ∧ target = endpointId file.path (d ++ "." ++ name))]
    refine exists_congr fun e => and_congr_right fun _ => ⟨?_, fun h => ⟨c, h.1, rfl, h.2⟩⟩
    rintro ⟨d, hd, rfl, htarget⟩
    exact ⟨hd, htarget⟩

/-- A class around an endpoint that is not the innermost one does no harm only if the endpoint that
it is given is one that it has of its own. -/
theorem ForAllAround.forInnermost_iff {g : Graph} (h : ForAllAround file tree g) :
    ForInnermost file tree g ↔ tree.OwnedByAllAround := by
  constructor
  · intro hown e he c hc
    obtain ⟨own, hmem, hhead, htarget⟩ :=
      hown.handler c _ ((h.handler_iff c _).mpr ⟨e, he, hc, rfl⟩)
    refine ⟨own, hmem, hhead, ?_⟩
    simpa [String.toList_inj] using congrArg String.toList (endpointId_injective htarget).symm
  · intro howned
    refine ⟨fun id hid => ?_, fun c target hedge => ?_⟩
    · rw [h.contains_iff id hid]
      constructor
      · rintro ⟨e, he, c, hc, rfl⟩
        obtain ⟨own, hmem, hhead, hname⟩ := howned e he c hc
        exact ⟨own, hmem, c, hhead, by rw [hname]⟩
      · rintro ⟨e, he, c, hhead, rfl⟩
        exact ⟨e, he, c, List.mem_of_head? hhead, rfl⟩
    · obtain ⟨e, he, hc, rfl⟩ := (h.handler_iff c target).mp hedge
      obtain ⟨own, hmem, hhead, hname⟩ := howned e he c hc
      exact ⟨own, hmem, hhead, by rw [hname]⟩

end

/-- **Endpoints belong to all classes around them.** In every file an endpoint stands in the graph
for every class around it. So it stands there for its innermost class only exactly when every other
class around it has an endpoint of that name of its own. -/
theorem endpoints_of_classes_around (file : SourceFile) (tree : Tree) :
    ForAllAround file tree (fragmentOf file tree) ∧
      (ForInnermost file tree (fragmentOf file tree) ↔ tree.OwnedByAllAround) :=
  ⟨forAllAround_fragmentOf, forAllAround_fragmentOf.forInnermost_iff⟩

/-! ## The method of an inner class -/

/-- A class in a class, with an endpoint. -/
def nestedClasses : List Char :=
  "class A:\n class B:\n  @get\n  def f(): pass\n".toList

/-- The text as the parser reads it. -/
def nestedClassesTree : Tree :=
  .node .module 1
    [.node (.classDef "A") 1
      [.node .block 2
        [.node (.classDef "B") 2
          [.node .block 3
            [.node .decorated 3
              [.node .decorator 3 [.node (.name "get") 3 []],
                .node (.functionDef "f" false) 4 [.node .block 4 [.node .other 4 []]]]]]]]]

theorem ofText_nestedClasses : Tree.ofText nestedClasses = nestedClassesTree := by
  cbv

theorem endpoints_nestedClasses : nestedClassesTree.endpoints = [⟨["B", "A"], "f"⟩] := by
  rfl

/-- **An outer class has the method of an inner one**: the only endpoint in the file is in `B`, and
in the graph it is a method of `A` as well. -/
theorem method_of_inner_class :
    ∃ g, fragment theFile nestedClasses = .ok g ∧
      (Tree.ofText nestedClasses).endpoints = [⟨["B", "A"], "f"⟩] ∧
      g.contains "endpoint:a.py:A.f" = true ∧
      ("class:a.py:A", "endpoint:a.py:A.f", EdgeKind.endpointHandler)
        ∈ g.edges.toList.map Edge.triple ∧
      ¬ ForInnermost theFile (Tree.ofText nestedClasses) g := by
  have hwell : nestedClassesTree.hasFault = false := by decide
  have hfragment : fragment theFile nestedClasses = .ok (fragmentOf theFile nestedClassesTree) := by
    rw [fragment, ofText_nestedClasses, hwell]
    rfl
  have hall : ForAllAround theFile nestedClassesTree (fragmentOf theFile nestedClassesTree) :=
    forAllAround_fragmentOf
  have hmem : ⟨["B", "A"], "f"⟩ ∈ nestedClassesTree.endpoints := by
    rw [endpoints_nestedClasses]
    exact List.mem_singleton_self _
  have hclass : classId theFile.path "A" = "class:a.py:A" := by decide
  have hendpoint : endpointId theFile.path ("A" ++ "." ++ "f") = "endpoint:a.py:A.f" := by decide
  have hedge := (hall.handler_iff "A" _).mpr ⟨_, hmem, by decide, rfl⟩
  rw [hclass, hendpoint] at hedge
  rw [ofText_nestedClasses]
  refine ⟨_, hfragment, endpoints_nestedClasses, ?_, hedge, fun hinnermost => ?_⟩
  · exact (hall.contains_iff _ (by decide)).mpr ⟨_, hmem, "A", by decide, hendpoint.symm⟩
  · -- the innermost class around the only endpoint is `B`
    obtain ⟨own, hown, hhead, -⟩ := hinnermost.handler "A" "endpoint:a.py:A.f" (hclass ▸ hedge)
    rw [endpoints_nestedClasses] at hown
    rw [List.mem_singleton.mp hown] at hhead
    exact absurd hhead (by decide)

end Cartograph.Python
