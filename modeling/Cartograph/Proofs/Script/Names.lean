import Cartograph.Proofs.Script.Routes

/-!
# Names in script files

A name is given once in a file. If a class has the name the name is that of the class, wherever in
the text the class stands. If none has it the name goes to the first function that is declared by
it, and to the first arrow function that is bound to it only if no function is declared so. Main
statement: `Script.names_given_once`.
-/

namespace Cartograph

/-! ## Names that are captured -/

namespace Pattern

/-- The pattern is found at the place, and what it captures first is the name. -/
def NamesAt (p : Pattern) (text : List Char) (name : String) (place : Nat) : Prop :=
  ∃ found, (place, found) ∈ p.finds text ∧ found.captures.head? = some name

/-- The pattern is found somewhere, and what it captures first is the name. -/
def Names (p : Pattern) (text : List Char) (name : String) : Prop :=
  ∃ place, p.NamesAt text name place

variable {p : Pattern} {text : List Char} {name : String}

theorem exists_mem_occurrences_iff :
    (∃ found ∈ p.occurrences text, found.captures.head? = some name) ↔ p.Names text name := by
  rw [occurrences_eq_map]
  constructor
  · rintro ⟨_, hfound, hname⟩
    obtain ⟨⟨place, found⟩, hentry, rfl⟩ := List.mem_map.mp hfound
    exact ⟨place, found, hentry, hname⟩
  · rintro ⟨place, found, hentry, hname⟩
    exact ⟨_, List.mem_map_of_mem hentry, hname⟩

theorem exists_mem_firstCaptures_iff :
    (∃ found ∈ p.firstCaptures text, found.2 = name) ↔ p.Names text name := by
  rw [← exists_mem_occurrences_iff, firstCaptures]
  simp only [List.mem_filterMap, Option.map_eq_some_iff]
  constructor
  · rintro ⟨_, ⟨found, hfound, s, hs, rfl⟩, rfl⟩
    exact ⟨found, hfound, hs⟩
  · rintro ⟨found, hfound, hname⟩
    exact ⟨_, ⟨found, hfound, name, hname, rfl⟩, rfl⟩

/-- **The first capture of a name** is on the line of the first place that gives the name. -/
theorem firstWith_firstCaptures_iff {line : Nat} :
    FirstWith (fun found => found.2 = name) (p.firstCaptures text) (line, name) ↔
      ∃ place, IsLeast {place | p.NamesAt text name place} place ∧ line = lineAt text place := by
  have hgives : ∀ entry : Nat × Found,
      (∃ c, (entry.2.captures.head?.map fun s => (lineAt text entry.1, s)) = some c ∧ c.2 = name) ↔
        entry.2.captures.head? = some name := by
    intro entry
    cases entry.2.captures.head? <;> simp
  rw [firstCaptures_eq_filterMap, firstWith_filterMap_iff, Prod.exists]
  simp only [hgives]
  constructor
  · rintro ⟨place, found, hfirst, hline⟩
    refine ⟨place, exists_firstWith_finds_iff.mp ⟨found, hfirst⟩, ?_⟩
    obtain ⟨s, -, heq⟩ := Option.map_eq_some_iff.mp hline
    exact (congrArg Prod.fst heq).symm
  · rintro ⟨place, hleast, rfl⟩
    obtain ⟨found, hfirst⟩ := exists_firstWith_finds_iff.mpr hleast
    have hname : found.captures.head? = some name := hfirst.holds
    exact ⟨place, found, hfirst, by rw [hname]; rfl⟩

end Pattern

namespace Script

open Pattern

/-! ## Names that are free -/

/-- **What is kept** are the first finds of the names that are not taken. -/
theorem mem_unclaimed_iff {taken : Std.HashSet String} {found : Nat × String}
    {all : List (Nat × String)} : found ∈ unclaimed taken all ↔
      found.2 ∉ taken ∧ FirstWith (fun other => other.2 = found.2) all found := by
  -- the names of finds that are kept are taken from there on, so the set varies
  induction all generalizing taken with
  | nil => simp [unclaimed, not_firstWith_nil]
  | cons first rest ih =>
      obtain ⟨line, name⟩ := first
      rw [unclaimed, firstWith_cons_iff]
      split
      · rename_i htaken
        rw [ih]
        -- the find has a taken name, so it is not the one that is asked for
        refine and_congr_right fun hfree => ?_
        have hne : name ≠ found.2 := by
          rintro rfl
          exact hfree (Std.HashSet.mem_iff_contains.mpr htaken)
        simp [hne]
      · rename_i hfree
        rw [List.mem_cons, ih, Std.HashSet.mem_insert, beq_iff_eq, not_or]
        constructor
        · rintro (rfl | ⟨⟨hne, htaken⟩, hfirst⟩)
          · exact ⟨hfree, Or.inl ⟨rfl, rfl⟩⟩
          · exact ⟨htaken, Or.inr ⟨hne, hfirst⟩⟩
        · rintro ⟨htaken, ⟨-, heq⟩ | ⟨hne, hfirst⟩⟩
          · exact Or.inl heq
          · exact Or.inr ⟨⟨hne, htaken⟩, hfirst⟩

/-- No name is kept twice. -/
theorem nodup_unclaimed (taken : Std.HashSet String) (all : List (Nat × String)) :
    ((unclaimed taken all).map Prod.snd).Nodup := by
  induction all generalizing taken with
  | nil => exact List.nodup_nil
  | cons first rest ih =>
      obtain ⟨line, name⟩ := first
      rw [unclaimed]
      split
      · exact ih _
      · rw [List.map_cons, List.nodup_cons]
        refine ⟨fun hmem => ?_, ih _⟩
        -- behind the find its own name is taken
        obtain ⟨other, hother, hname⟩ := List.mem_map.mp hmem
        refine (mem_unclaimed_iff.mp hother).1 ?_
        rw [hname]
        exact Std.HashSet.mem_insert_self

/-! ## The functions of a text -/

/-- A function gets the name at this place: it is declared there first, or no function is declared
by the name and an arrow function is first bound to it there. -/
def FunctionAt (text : List Char) (name : String) (place : Nat) : Prop :=
  IsLeast {place | functionDeclaration.NamesAt text name place} place ∨
    ¬ functionDeclaration.Names text name ∧
      IsLeast {place | arrowDeclaration.NamesAt text name place} place

variable {text : List Char}

/-- **The functions of a text** are those whose names no class has, each where it gets its name. -/
theorem mem_functions_iff {found : Nat × String} : found ∈ functions text ↔
    ¬ classDeclaration.Names text found.2 ∧
      ∃ place, FunctionAt text found.2 place ∧ found.1 = lineAt text place := by
  obtain ⟨line, name⟩ := found
  have htaken : name ∉ Std.HashSet.ofList
      ((classDeclaration.occurrences text).filterMap fun found => found.captures.head?) ↔
        ¬ classDeclaration.Names text name := by
    rw [Std.HashSet.mem_ofList, List.contains_iff_mem, List.mem_filterMap,
      exists_mem_occurrences_iff]
  have hshapes : (functionShapes.flatMap fun shape => shape.firstCaptures text)
      = functionDeclaration.firstCaptures text ++ arrowDeclaration.firstCaptures text := by
    simp [functionShapes]
  have hnone : (∀ other ∈ functionDeclaration.firstCaptures text, ¬ other.2 = name) ↔
      ¬ functionDeclaration.Names text name := by
    rw [← exists_mem_firstCaptures_iff]
    simp only [not_exists, not_and]
  rw [functions, mem_unclaimed_iff, htaken, hshapes, firstWith_append_iff, hnone,
    firstWith_firstCaptures_iff, firstWith_firstCaptures_iff]
  simp only [FunctionAt, or_and_right, exists_or, and_assoc, exists_and_left]

/-- A name goes to a function as soon as either pattern gives it. -/
theorem exists_functionAt_iff {name : String} : (∃ place, FunctionAt text name place) ↔
    functionDeclaration.Names text name ∨ arrowDeclaration.Names text name := by
  constructor
  · rintro ⟨place, hdeclared | ⟨-, hbound⟩⟩
    · exact Or.inl ⟨place, hdeclared.1⟩
    · exact Or.inr ⟨place, hbound.1⟩
  · intro h
    by_cases hdeclared : functionDeclaration.Names text name
    · exact ⟨_, Or.inl (isLeast_csInf (s := {place | functionDeclaration.NamesAt text name place})
        hdeclared)⟩
    · exact ⟨_, Or.inr ⟨hdeclared, isLeast_csInf
        (s := {place | arrowDeclaration.NamesAt text name place}) (h.resolve_left hdeclared)⟩⟩

/-! ## Classes and functions of a file -/

section

variable {file : SourceFile} {name : String}

theorem nodesOf_class (file : SourceFile) (text : List Char) :
    (fragment file text).nodesOf "class" = firsts (definitions file text).classes := by
  rw [fragment_eq_put, file.nodesOf_put (by decide), filter_contents_class]

theorem nodesOf_function (file : SourceFile) (text : List Char) :
    (fragment file text).nodesOf "func" = firsts (definitions file text).functions := by
  rw [fragment_eq_put, file.nodesOf_put (by decide), filter_contents_function]

theorem exists_class_iff : (∃ node ∈ (definitions file text).classes, node.label = name) ↔
    classDeclaration.Names text name := by
  have hlabel : ∀ found, (∃ node, classNode? file found = some node ∧ node.label = name) ↔
      found.captures.head? = some name := by
    intro found
    unfold classNode?
    cases found.captures with
    | nil => simp
    | cons first rest => simp [classNode, Node.note]
  rw [← exists_mem_occurrences_iff]
  simp only [definitions, List.mem_filterMap, ← hlabel]
  constructor
  · rintro ⟨node, ⟨found, hfound, hnode⟩, hname⟩
    exact ⟨found, hfound, node, hnode, hname⟩
  · rintro ⟨found, hfound, node, hnode, hname⟩
    exact ⟨node, ⟨found, hfound, hnode⟩, hname⟩

theorem exists_function_iff : (∃ node ∈ (definitions file text).functions, node.label = name) ↔
    (functionDeclaration.Names text name ∨ arrowDeclaration.Names text name) ∧
      ¬ classDeclaration.Names text name := by
  rw [← exists_functionAt_iff]
  constructor
  · rintro ⟨node, hnode, rfl⟩
    obtain ⟨found, hfound, rfl⟩ := List.mem_map.mp hnode
    obtain ⟨hfree, place, hplace, -⟩ := mem_functions_iff.mp hfound
    exact ⟨⟨place, hplace⟩, hfree⟩
  · rintro ⟨⟨place, hplace⟩, hfree⟩
    have hfound : (lineAt text place, name) ∈ functions text :=
      mem_functions_iff.mpr ⟨hfree, place, hplace, rfl⟩
    exact ⟨_, List.mem_map_of_mem hfound, rfl⟩

/-- The identifier of a class is that of its name. -/
theorem id_of_class {node : Node} (h : node ∈ (definitions file text).classes) :
    node.id = classId file.path node.label := by
  have hdefined := definedBy_class h
  rw [hdefined.id_eq, hdefined.path_eq]

/-- The identifier of a function is that of its name. -/
theorem id_of_function {node : Node} (h : node ∈ (definitions file text).functions) :
    node.id = functionId file.path node.label := by
  have hdefined := definedBy_function h
  rw [hdefined.id_eq, hdefined.path_eq]

/-! ## Edges to functions -/

/-- The edge goes to the function and tells that the file has it. -/
def leadsToFunction (file : SourceFile) (name : String) (edge : Edge) : Bool :=
  edge.target = functionId file.path name ∧ edge.kind = .uses

/-- Edges to what has another sort lead to no function. -/
theorem filter_leadsToFunction_eq_nil {edges : List Edge}
    (h : ∀ edge ∈ edges, edge.kind = .uses → sortOf edge.target ≠ "func".toList) :
    edges.filter (leadsToFunction file name) = [] := by
  refine List.filter_eq_nil_iff.mpr fun edge hedge hleads => ?_
  obtain ⟨htarget, hkind⟩ := of_decide_eq_true hleads
  refine h edge hedge hkind ?_
  rw [htarget, sortOf_functionId]

/-- A class and its bases are no functions. -/
theorem filter_classContents_leadsToFunction (found : Pattern.Occurrence) :
    (classContents file found).edges.filter (leadsToFunction file name) = [] := by
  refine filter_leadsToFunction_eq_nil fun edge hedge hkind => ?_
  unfold classContents at hedge
  split at hedge
  · rcases List.mem_append.mp hedge with hown | hbases
    · obtain rfl := List.mem_singleton.mp hown
      simp [classNode, Node.note]
    · obtain ⟨part, hpart, hbase⟩ := List.mem_flatMap.mp hbases
      obtain ⟨base, -, rfl⟩ := List.mem_map.mp hpart
      obtain rfl := List.mem_singleton.mp hbase
      cases hkind
  · cases hedge

/-- **The edges to a function** are among those that the functions of the text put in. -/
theorem filter_edges_contents_function (file : SourceFile) (text : List Char) (name : String) :
    (contents file text).edges.filter (leadsToFunction file name)
      = ((definitions file text).functions.map (ownedEdge file .uses)).filter
          (leadsToFunction file name) := by
  have himports : ∀ target, leadsToFunction file name (importEdge file target) = false :=
    fun _ => decide_eq_false (fun h => EdgeKind.noConfusion h.2)
  have hmarks : ∀ kind : EdgeKind, kind.IsMark →
      leadsToFunction file name (Edge.marker file.id kind) = false :=
    fun _ hkind => decide_eq_false fun h => hkind.ne (by decide : ¬ EdgeKind.uses.IsMark) h.2
  have hroutes : ∀ found ∈ route.occurrences text,
      (routeContents file found).edges.filter (leadsToFunction file name) = [] := by
    intro found _
    rw [routeContents_eq]
    refine filter_leadsToFunction_eq_nil fun edge hedge hkind => ?_
    obtain ⟨node, -, rfl⟩ := List.mem_map.mp hedge
    cases hkind
  have hmodels : ∀ found ∈ models text,
      (modelContents file found).edges.filter (leadsToFunction file name) = [] := by
    intro found _
    refine filter_leadsToFunction_eq_nil fun edge hedge _ => ?_
    obtain rfl := List.mem_singleton.mp hedge
    simp [modelNode]
  have hrouter : (if routerSetUp.occursIn text then Contents.owned file .uses (routerNode file)
      else {}).edges.filter (leadsToFunction file name) = [] := by
    refine filter_leadsToFunction_eq_nil fun edge hedge _ => ?_
    split at hedge
    · obtain rfl := List.mem_singleton.mp hedge
      simp [routerNode]
    · cases hedge
  rw [filter_edges_contents_of_entities himports hmarks, List.flatMap_eq_nil_iff.mpr hroutes,
    List.flatMap_eq_nil_iff.mpr fun found _ => filter_classContents_leadsToFunction found,
    List.flatMap_eq_nil_iff.mpr hmodels, hrouter,
    ← List.filter_flatMap, definitions, List.map_map, List.map_eq_flatMap]
  simp only [List.nil_append, List.append_nil]
  rfl

/-- No name is given to two functions, so no edge is put in twice. -/
theorem nodup_functionEdges (file : SourceFile) (text : List Char) :
    ((definitions file text).functions.map (ownedEdge file .uses)).Nodup := by
  have hnames : ((functions text).map Prod.snd).Nodup := nodup_unclaimed _ _
  rw [definitions, List.map_map]
  rw [List.Nodup, List.pairwise_map] at hnames ⊢
  exact hnames.imp fun hne heq => hne (functionId_injective (congrArg Edge.target heq))

/-- **Every function has one edge** from its file. -/
theorem uses_function {node : Node} (h : node ∈ (fragment file text).nodesOf "func") :
    ((fragment file text).edges.toList.filter fun edge =>
        edge.target = node.id ∧ edge.kind = .uses) = [ownedEdge file .uses node] := by
  rw [nodesOf_function] at h
  have hnode := mem_of_mem_firsts h
  rw [edges_fragment, id_of_function hnode]
  refine (filter_edges_contents_function file text node.label).trans
    (eq_singleton_of_nodup ((nodup_functionEdges file text).filter _) fun edge => ?_)
  rw [List.mem_filter, leadsToFunction, decide_eq_true_iff, ← id_of_function hnode]
  constructor
  · rintro ⟨hedge, htarget, -⟩
    obtain ⟨other, -, rfl⟩ := List.mem_map.mp hedge
    exact ownedEdge_congr htarget
  · rintro rfl
    exact ⟨List.mem_map_of_mem hnode, rfl, rfl⟩

/-! ## Main result -/

/-- Every name that the text gives has one class or one function in the graph. -/
structure GivesNames (file : SourceFile) (text : List Char) (g : Graph) : Prop where
  /-- The classes are one for each name that a class has. -/
  classes : g.OnePerName "class" fun name => classDeclaration.Names text name
  /-- The functions are one for each other name that is given to functions. -/
  functions : g.OnePerName "func" fun name =>
    (functionDeclaration.Names text name ∨ arrowDeclaration.Names text name) ∧
      ¬ classDeclaration.Names text name
  class_id : ∀ node ∈ g.nodesOf "class", node.id = classId file.path node.label
  function_id : ∀ node ∈ g.nodesOf "func", node.id = functionId file.path node.label
  /-- No name has both a class and a function. -/
  apart : ∀ name, ¬ (g.contains (classId file.path name) = true ∧
    g.contains (functionId file.path name) = true)
  /-- One edge leads to a function as to what the file has. -/
  used : ∀ node ∈ g.nodesOf "func",
    (g.edges.toList.filter fun edge => edge.target = node.id ∧ edge.kind = .uses)
      = [{ source := file.id, target := node.id, kind := .uses }]
  /-- A function is on the line where it gets its name. -/
  line : ∀ node ∈ g.nodesOf "func", ∃ place,
    FunctionAt text node.label place ∧ node.line = UInt32.ofNat (lineAt text place)

theorem onePerName_classes (file : SourceFile) (text : List Char) :
    (fragment file text).OnePerName "class" fun name => classDeclaration.Names text name :=
  Graph.onePerName_of_firsts (nodesOf_class file text) classId_injective (fun _ => id_of_class)
    fun _ => exists_class_iff

theorem onePerName_functions (file : SourceFile) (text : List Char) :
    (fragment file text).OnePerName "func" fun name =>
      (functionDeclaration.Names text name ∨ arrowDeclaration.Names text name) ∧
        ¬ classDeclaration.Names text name :=
  Graph.onePerName_of_firsts (nodesOf_function file text) functionId_injective
    (fun _ => id_of_function) fun _ => exists_function_iff

/-- **Names are given once**, whatever the text is and in whatever order it declares: to a class if
one has the name, and else to the first function that is declared by it, or to the first arrow
function if none is. -/
theorem names_given_once (file : SourceFile) (text : List Char) :
    GivesNames file text (fragment file text) := by
  have hclasses := onePerName_classes file text
  have hfunctions := onePerName_functions file text
  have hclass_id : ∀ node ∈ (fragment file text).nodesOf "class",
      node.id = classId file.path node.label := by
    intro node hnode
    rw [nodesOf_class] at hnode
    exact id_of_class (mem_of_mem_firsts hnode)
  have hfunction_id : ∀ node ∈ (fragment file text).nodesOf "func",
      node.id = functionId file.path node.label := by
    intro node hnode
    rw [nodesOf_function] at hnode
    exact id_of_function (mem_of_mem_firsts hnode)
  refine ⟨hclasses, hfunctions, hclass_id, hfunction_id, ?_, fun _ => uses_function, ?_⟩
  · -- a class gives the name, so no function may have it
    rintro name ⟨hclass, hfunction⟩
    have hindexed := (grown_fragment file text).indexed
    have hnamed := (hclasses.mem_iff name).mp (Graph.mem_labels_of_contains hindexed
      classId_injective hclass_id (sortOf_classId _ _) hclass)
    have hfree := (hfunctions.mem_iff name).mp (Graph.mem_labels_of_contains hindexed
      functionId_injective hfunction_id (sortOf_functionId _ _) hfunction)
    exact hfree.2 hnamed
  · intro node hnode
    rw [nodesOf_function] at hnode
    obtain ⟨found, hfound, rfl⟩ := List.mem_map.mp (mem_of_mem_firsts hnode)
    obtain ⟨-, place, hplace, hline⟩ := mem_functions_iff.mp hfound
    exact ⟨place, hplace, congrArg UInt32.ofNat hline⟩

end

end Script

end Cartograph
