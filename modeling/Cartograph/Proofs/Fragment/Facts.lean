import Cartograph.Graph.Codec
import Cartograph.Proofs.Fragment.Contents
import Cartograph.Proofs.Json.Received
import Cartograph.Proofs.Pipeline

/-!
# What facts are told by

A fact about a node or an edge is told by words, truth values and lists of words. So all numbers of
a report are counts and lines, and its JSON value has no decimals and is not nested deep. Main
statement: the report on every repository can be read (`readable_repositoryReport`).
-/

namespace Cartograph

/-! ## Facts -/

/-- Every fact is a value without decimals, and a list at most. -/
def Metadata.Readable (metadata : Metadata) : Prop :=
  ∀ m ∈ metadata, m.2.Readable 1

theorem Metadata.Readable.nil : Metadata.Readable [] := nofun

/-- One more fact. -/
theorem Metadata.Readable.insert {metadata : Metadata} (h : metadata.Readable) (key : String)
    {value : Json}
    (hvalue : value.Readable 1) :
    Metadata.Readable (Json.insertMember key value metadata) := by
  intro m hm
  rcases Json.mem_of_mem_insertMember hm with rfl | hm
  · exact hvalue
  · exact h m hm

theorem Metadata.Readable.singleton (key : String) {value : Json}
    (h : value.Readable 1) :
    Metadata.Readable [(key, value)] :=
  Metadata.Readable.nil.insert key h

theorem Node.readable_note {node : Node} (h : node.metadata.Readable) (key : String) {value : Json}
    (hvalue : value.Readable 1) : (node.note key value).metadata.Readable :=
  h.insert key hvalue

theorem Edge.readable_note {edge : Edge} (h : edge.metadata.Readable) (key : String) {value : Json}
    (hvalue : value.Readable 1) : (edge.note key value).metadata.Readable :=
  h.insert key hvalue

/-! ## Contents -/

/-- Every fact about what is put in is a value without decimals. -/
structure Contents.Readable (contents : Contents) : Prop where
  nodes : ∀ node ∈ contents.nodes, node.metadata.Readable
  edges : ∀ edge ∈ contents.edges, edge.metadata.Readable

namespace Contents.Readable

theorem empty : Contents.Readable {} := ⟨nofun, nofun⟩

theorem append {a b : Contents} (ha : a.Readable) (hb : b.Readable) : (a ++ b).Readable where
  nodes := by
    rw [nodes_append]
    exact List.forall_mem_append.mpr ⟨ha.nodes, hb.nodes⟩
  edges := by
    rw [edges_append]
    exact List.forall_mem_append.mpr ⟨ha.edges, hb.edges⟩

theorem all {α : Type} {items : List α} {part : α → Contents}
    (h : ∀ item ∈ items, (part item).Readable) : (Contents.all (items.map part)).Readable where
  nodes node hnode := by
    obtain ⟨_, hpart, hnode⟩ := List.mem_flatMap.mp hnode
    obtain ⟨item, hitem, rfl⟩ := List.mem_map.mp hpart
    exact (h item hitem).nodes node hnode
  edges edge hedge := by
    obtain ⟨_, hpart, hedge⟩ := List.mem_flatMap.mp hedge
    obtain ⟨item, hitem, rfl⟩ := List.mem_map.mp hpart
    exact (h item hitem).edges edge hedge

theorem edge {edge : Edge} (h : edge.metadata.Readable) : Contents.Readable { edges := [edge] } where
  nodes := nofun
  edges := List.forall_mem_singleton.mpr h

/-- A node together with an edge to it about which nothing more is told. -/
theorem node_edge {node : Node} (h : node.metadata.Readable) {edge : Edge}
    (hedge : edge.metadata = []) : Contents.Readable { nodes := [node], edges := [edge] } where
  nodes := List.forall_mem_singleton.mpr h
  edges := by
    rw [List.forall_mem_singleton, hedge]
    exact .nil

theorem owned (file : SourceFile) (kind : EdgeKind) {node : Node} (h : node.metadata.Readable) :
    (Contents.owned file kind node).Readable :=
  node_edge h rfl

theorem base (id base : String) : (Contents.base id base).Readable := by
  have hbase : (Node.classRef base).metadata.Readable := .singleton _ (Json.readable_bool true 1)
  exact node_edge hbase rfl

end Contents.Readable

/-! ## Script files -/

namespace Script

variable {file : SourceFile}

theorem readable_routeNode (line : Nat) (verb path : String) :
    (routeNode file line verb path).metadata.Readable :=
  Node.readable_note (Node.readable_note .nil "method" (Json.readable_str _ 1)) "path" (Json.readable_str path 1)

theorem readable_classNode (line : Nat) (name : String) (base : Option String) :
    (classNode file line name base).metadata.Readable := by
  refine Node.readable_note .nil "extends" ?_
  cases base with
  | none => exact Json.readable_null 1
  | some base => exact Json.readable_str base 1

theorem readable_routeContents (found : Pattern.Occurrence) : (routeContents file found).Readable := by
  unfold routeContents
  split
  · exact .owned file _ (readable_routeNode _ _ _)
  · exact .empty

theorem readable_classContents (found : Pattern.Occurrence) : (classContents file found).Readable := by
  unfold classContents
  split
  · exact .append (.owned file _ (readable_classNode _ _ _)) (.all fun _ _ => .base _ _)
  · exact .empty

theorem readable_contents (text : List Char) : (contents file text).Readable := by
  have hroutes : ∀ found ∈ route.occurrences text, (routeContents file found).Readable :=
    fun found _ => readable_routeContents found
  have hclasses : ∀ found ∈ classDeclaration.occurrences text, (classContents file found).Readable :=
    fun found _ => readable_classContents found
  have hfunctions : ∀ found ∈ functions text, (functionContents file found).Readable :=
    fun _ _ => .owned file _ .nil
  have hmodels : ∀ found ∈ models text, (modelContents file found).Readable :=
    fun _ _ => .owned file _ .nil
  have himports : ∀ target ∈ importedModules text,
      Contents.Readable { edges := [importEdge file target] } := fun _ _ => .edge .nil
  have hmarks : ∀ kind ∈ marks text, Contents.Readable { edges := [Edge.marker file.id kind] } :=
    fun _ _ => .edge .nil
  unfold contents
  refine .append (.append (.append (.append (.append (.append (.all hroutes) (.all hclasses))
    (.all hfunctions)) (.all hmodels)) (.all himports)) (.all hmarks)) ?_
  split
  · exact .owned file _ .nil
  · exact .empty

end Script

/-! ## Python files -/

namespace Python

variable {file : SourceFile}

theorem readable_stringList (items : List String) : (stringList items).Readable 1 := by
  rw [stringList, Json.readable_arr_iff, List.forall_mem_map]
  exact fun item _ => Json.readable_str item 0

theorem readable_classNode (name : String) (visit : Tree.Visit) :
    (classNode file name visit).metadata.Readable :=
  Node.readable_note (Node.readable_note .nil "bases" (readable_stringList _)) "decorators"
    (readable_stringList _)

theorem readable_methodNode (className name : String) (visit : Tree.Visit) :
    (methodNode file className name visit).metadata.Readable :=
  Node.readable_note .nil "method" (Json.readable_str _ 1)

theorem readable_functionNode (name : String) (isAsync : Bool) (visit : Tree.Visit) :
    (functionNode file name isAsync visit).metadata.Readable :=
  Node.readable_note (Node.readable_note .nil "decorators" (readable_stringList _)) "is_async"
    (Json.readable_bool isAsync 1)

theorem readable_methodContents (className : String) (visit : Tree.Visit) :
    (methodContents file className visit).Readable := by
  unfold methodContents
  split
  · split
    · exact .node_edge (readable_methodNode _ _ _) rfl
    · exact .empty
  · exact .empty

theorem readable_classContents (visit : Tree.Visit) : (classContents file visit).Readable := by
  unfold classContents
  split
  · exact .append (.append (.owned file _ (readable_classNode _ _)) (.all fun _ _ => .base _ _))
      (.all fun method _ => readable_methodContents _ method)
  · exact .empty

theorem readable_functionContents (visit : Tree.Visit) : (functionContents file visit).Readable := by
  unfold functionContents
  split
  · refine .append (.owned file _ (readable_functionNode _ _ _)) ?_
    split
    · exact .edge .nil
    · exact .empty
  · exact .empty

/-- The facts about a mark are names. -/
theorem readable_of_mem_marks {tree : Tree} {edge : Edge} (h : edge ∈ marks file tree) :
    edge.metadata.Readable := by
  have hnoted (kind : EdgeKind) (method key object : String) :
      (((Edge.marker file.id kind).note "method" (.str method)).note key
        (.str object)).metadata.Readable :=
    Edge.readable_note (Edge.readable_note .nil "method" (Json.readable_str method 1)) key
      (Json.readable_str object 1)
  have hmethod (object method : String) : ∀ edge ∈ methodMarks file object method,
      edge.metadata.Readable := by
    intro edge hedge
    rcases List.mem_append.mp hedge with hdatabase | hrequest
    · split at hdatabase
      · obtain rfl := List.mem_singleton.mp hdatabase
        exact hnoted _ method "object" object
      · cases hdatabase
    · split at hrequest
      · obtain rfl := List.mem_singleton.mp hrequest
        exact hnoted _ method "module" object
      · cases hrequest
  obtain ⟨call, -, hcall⟩ := List.mem_flatMap.mp h
  unfold callMarks at hcall
  split at hcall
  · split at hcall
    · exact hmethod _ _ edge hcall
    · split at hcall
      · obtain rfl := List.mem_singleton.mp hcall
        exact Edge.readable_note .nil "function" (Json.readable_str _ 1)
      · cases hcall
    · cases hcall
  · cases hcall

theorem readable_contents (tree : Tree) : (contents file tree).Readable := by
  have hclasses : ∀ visit ∈ tree.visits [], (classContents file visit).Readable :=
    fun visit _ => readable_classContents visit
  have hfunctions : ∀ visit ∈ moduleFunctions tree, (functionContents file visit).Readable :=
    fun visit _ => readable_functionContents visit
  have himports : ∀ target ∈ imports tree,
      Contents.Readable { edges := [importEdge file target] } := fun _ _ => .edge .nil
  have hmarks : ∀ edge ∈ marks file tree, Contents.Readable { edges := [edge] } :=
    fun _ hedge => .edge (readable_of_mem_marks hedge)
  exact .append (.append (.append (.all hclasses) (.all hfunctions)) (.all himports)) (.all hmarks)

end Python

/-! ## Every file -/

section

variable {tree : FileTree} {settings : ExtractionSettings}

/-- **No fact that a file tells is a decimal**, whatever the language and the text. -/
theorem SourceFile.readable_contents (file : SourceFile) : (file.contents tree settings).Readable := by
  unfold SourceFile.contents
  split
  · rename_i text _
    unfold Language.contents
    split
    · dsimp only
      split
      · exact .empty
      · exact Python.readable_contents _
    · exact Script.readable_contents text
    · exact .all fun _ _ => .edge .nil
  · exact .empty

theorem SourceFile.readable_node (file : SourceFile) : file.node.metadata.Readable :=
  Metadata.Readable.singleton _ (Json.readable_str _ 1)

variable {files : List SourceFile}

theorem readable_of_mem_nodes_combined {node : Node}
    (h : node ∈ (combined tree settings files).nodes) : node.metadata.Readable := by
  obtain ⟨file, -, hnode⟩ := mem_nodes_of_mem_combined h
  rw [SourceFile.contribution_eq_put] at hnode
  rcases Graph.mem_nodes_of_mem_foldl_addNode _ hnode with hbare | hput
  · rcases Graph.mem_nodes_of_mem_addNode hbare with hempty | rfl
    · cases Array.not_mem_empty _ hempty
    · exact file.readable_node
  · exact file.readable_contents.nodes node hput

theorem readable_of_mem_edges_combined {edge : Edge}
    (h : edge ∈ (combined tree settings files).edges.toList) : edge.metadata.Readable := by
  rw [edges_combined] at h
  obtain ⟨file, -, hedge⟩ := List.mem_flatMap.mp h
  rw [SourceFile.edges_contribution] at hedge
  exact file.readable_contents.edges edge hedge

end

/-! ## Reports -/

/-- The facts of a node stand beside a line and words. -/
theorem Node.readable_of_mem_members {node : Node} (h : node.metadata.Readable) :
    ∀ m ∈ node.members, m.2.Readable 2 := by
  simp only [Node.members, List.forall_mem_cons]
  exact ⟨Json.readable_str _ 2, Json.readable_str _ 2, Json.readable_str _ 2,
    Json.readable_str _ 2, Json.readable_int _ 2, Json.readable_obj_iff.mpr h, nofun⟩

theorem RatedNode.readable_toJson {rated : RatedNode} (h : rated.node.metadata.Readable) :
    rated.toJson.Readable 3 := by
  rw [RatedNode.toJson, Json.readable_obj_iff, List.forall_mem_append, List.forall_mem_singleton]
  exact ⟨Node.readable_of_mem_members h, Json.readable_int _ 2⟩

theorem Edge.readable_toJson {edge : Edge} (h : edge.metadata.Readable) :
    edge.toJson.Readable 3 := by
  rw [Edge.toJson, Json.readable_obj_iff]
  simp only [List.forall_mem_cons]
  exact ⟨Json.readable_str _ 2, Json.readable_str _ 2, Json.readable_str _ 2,
    Json.readable_obj_iff.mpr h, nofun⟩

theorem readable_tableToJson {κ β : Type} (name : κ → String) {write : β → Json} {room : Nat}
    (h : ∀ entry, (write entry).Readable room) (table : List (κ × β)) :
    (tableToJson name write table).Readable (room + 1) := by
  rw [tableToJson, Json.readable_obj_iff, List.forall_mem_map]
  exact fun entry _ => h entry.2

/-- A report can be read if its facts can. -/
theorem Report.readable_toJson {report : Report}
    (hnodes : ∀ rated ∈ report.nodes, rated.node.metadata.Readable)
    (hedges : ∀ edge ∈ report.edges, edge.metadata.Readable) : report.toJson.Readable 5 := by
  have htotals : report.totals.toJson.Readable 4 := by
    rw [Totals.toJson, Json.readable_obj_iff]
    simp only [List.forall_mem_cons]
    exact ⟨Json.readable_int _ 3, Json.readable_int _ 3, nofun⟩
  have hnodeList : (Json.arr (report.nodes.map RatedNode.toJson)).Readable 4 := by
    rw [Json.readable_arr_iff, List.forall_mem_map]
    exact fun rated hrated => RatedNode.readable_toJson (hnodes rated hrated)
  have hedgeList : (Json.arr (report.edges.map Edge.toJson)).Readable 4 := by
    rw [Json.readable_arr_iff, List.forall_mem_map]
    exact fun edge hedge => Edge.readable_toJson (hedges edge hedge)
  have hcolor (color : String) : (Json.str color).Readable 3 := Json.readable_str color 3
  have hcount (n : Nat) : (Json.int n).Readable 3 := Json.readable_int n 3
  rw [Report.toJson, Json.readable_obj_iff, List.forall_mem_append]
  constructor
  · simp only [List.forall_mem_cons]
    exact ⟨hnodeList, hedgeList, readable_tableToJson _ hcolor _, readable_tableToJson _ hcolor _,
      readable_tableToJson _ hcount _, readable_tableToJson _ hcount _, htotals, nofun⟩
  · split
    · exact List.forall_mem_singleton.mpr (Json.readable_str _ 4)
    · nofun

/-- A redirected edge tells what it told. -/
theorem metadata_redirectAll (files : List SourceFile) (edge : Edge) :
    (redirectAll files edge).metadata = edge.metadata := by
  have hredirect (r : Resolver) (edge : Edge) : (r.redirect edge).metadata = edge.metadata := by
    unfold Resolver.redirect
    split <;> rfl
  simp [redirectAll, resolvers, hredirect]

/-- **The report on a repository can be read.** -/
theorem readable_repositoryReport (tree : FileTree) (settings : Settings) (root : Place) :
    (repositoryReport tree settings root).toJson.Readable Json.nestingLimit := by
  refine (Report.readable_toJson ?_ ?_).mono (by decide)
  · intro rated hrated
    have hnode : rated.node ∈ (combined tree settings.extraction
        (repositoryFiles tree root settings.discovery)).nodes.toList := by
      rw [← nodes_repositoryReport]
      exact List.mem_map_of_mem hrated
    exact readable_of_mem_nodes_combined (Array.mem_toList_iff.mp hnode)
  · intro edge hedge
    obtain ⟨found, hfound, rfl⟩ := List.mem_map.mp (Graph.mem_edges_finish.mp hedge).2.mem
    rw [metadata_redirectAll]
    exact readable_of_mem_edges_combined hfound

end Cartograph
