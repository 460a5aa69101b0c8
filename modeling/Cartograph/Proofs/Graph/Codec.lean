import Cartograph.Graph.Codec
import Cartograph.Proofs.Json.Rearranging

/-!
# Graphs, written and read

A node, an edge or a report that was written reads back, however the members of the objects are
ordered (`Node.ofJson?_toJson`, `Edge.ofJson?_toJson`, `Report.ofJson?_toJson`). What is read from
an ordered value is proper: the facts in it are sorted by key and the tables of a report are in the
order of the legend (`Report.proper_of_ofJson?`). The fields of a node or an edge may be given as an
array (`Node.ofJson?_arr`, `Edge.ofJson?_arr`).
-/

namespace Cartograph

open Json

/-! ## Kinds and numbers -/

theorem kindOf?_name {κ : Type} {ofName? : String → Option κ} {isVoid : Json → Bool}
    {name : κ → String} (h : ∀ kind, ofName? (name kind) = some kind) (kind : κ) :
    kindOf? ofName? isVoid (.str (name kind)) = some kind :=
  h kind

theorem word32?_toNat (n : UInt32) : word32? (.int n.toNat) = some n := by
  have hn : n.toNat < UInt32.size := n.toNat_lt_size
  have hread : (Json.int n.toNat).nat? = some n.toNat := rfl
  simp only [word32?, hread, Option.bind_eq_bind, Option.bind_some, if_pos hn, UInt32.ofNat_toNat]

/-! ## Nodes -/

/-- The facts about a node are sorted by key. -/
def Node.Proper (node : Node) : Prop :=
  (obj node.metadata).Ordered

instance (node : Node) : Decidable node.Proper :=
  inferInstanceAs (Decidable (obj node.metadata).Ordered)

/-- The members show the fields of a node. -/
structure Node.Shown (node : Node) (members : List (String × Json)) : Prop where
  id : member? "id" members = some (.str node.id)
  label : member? "label" members = some (.str node.label)
  kind : member? "type" members = some (.str node.kind.name)
  path : member? "file_path" members = some (.str node.path)
  line : member? "line_number" members = some (.int node.line.toNat)
  metadata : member? "metadata" members = some (.obj node.metadata)

theorem Node.Shown.ofMembers? {node : Node} {members : List (String × Json)}
    (h : node.Shown members) (isVoid : Json → Bool) :
    Node.ofMembers? isVoid members = some node := by
  simp only [Node.ofMembers?, h.id, h.label, h.kind, h.path, h.line, h.metadata,
    Option.bind_eq_bind, Option.bind_some, Node.ofFields?, string?, word32?_toNat, members?,
    kindOf?_name NodeKind.ofName?_name, Option.pure_def]

theorem Node.shown_members (node : Node) (others : List (String × Json)) :
    node.Shown (node.members ++ others) :=
  ⟨rfl, rfl, rfl, rfl, rfl, rfl⟩

section

variable {form : Json → Json} (hform : Rearranges form)

include hform

/-- Moved members still show the node. -/
theorem Node.Shown.moved {node : Node} (hnode : node.Proper)
    {members moved : List (String × Json)} (h : node.Shown members)
    (hmoved : ∀ key, member? key moved = (member? key members).map form) : node.Shown moved where
  id := by rw [hmoved, h.id, Option.map_some, hform.str]
  label := by rw [hmoved, h.label, Option.map_some, hform.str]
  kind := by rw [hmoved, h.kind, Option.map_some, hform.str]
  path := by rw [hmoved, h.path, Option.map_some, hform.str]
  line := by rw [hmoved, h.line, Option.map_some, hform.int]
  metadata := by rw [hmoved, h.metadata, Option.map_some, hform.ordered hnode]

/-- **A node reads back.** -/
theorem Node.ofJson?_toJson {node : Node} (hnode : node.Proper) :
    Node.ofJson? (form node.toJson) = some node := by
  obtain ⟨moved, hwritten, hmoved⟩ := hform.obj node.members (by simp [Node.members])
  have hshown : node.Shown node.members := List.append_nil node.members ▸ node.shown_members []
  rw [Node.toJson, hwritten]
  exact (hshown.moved hform hnode hmoved).ofMembers? _

/-- A node reads back with its degree. -/
theorem RatedNode.ofJson?_toJson {rated : RatedNode} (hnode : rated.node.Proper) :
    RatedNode.ofJson? (form rated.toJson) = some rated := by
  obtain ⟨moved, hwritten, hmoved⟩ := hform.obj
    (rated.node.members ++ [("degree", .int rated.degree)]) (by simp [Node.members])
  have hshown := (rated.node.shown_members [("degree", .int rated.degree)]).moved hform hnode hmoved
  have hdegree : member? "degree" moved = some (.int rated.degree) :=
    (hmoved "degree").trans (congrArg some (hform.int _))
  rw [RatedNode.toJson, hwritten]
  simp only [RatedNode.ofJson?, hshown.ofMembers?, hdegree, Option.bind_eq_bind, Option.bind_some]
  rfl

end

/-- Facts that are read from an ordered value are sorted by key. -/
theorem ordered_of_members? {value : Json} {members : List (String × Json)}
    (hvalue : value.Ordered) (h : value.members? = some members) : (obj members).Ordered := by
  cases value with
  | obj found =>
      obtain rfl := Option.some.inj h
      exact hvalue
  | _ => cases h

theorem Node.proper_of_ofFields? {isVoid : Json → Bool} {id label kind path line metadata : Json}
    {node : Node} (hmetadata : metadata.Ordered)
    (h : Node.ofFields? isVoid id label kind path line metadata = some node) : node.Proper := by
  simp only [Node.ofFields?, Option.bind_eq_bind, Option.bind_eq_some_iff, Option.pure_def,
    Option.some.injEq] at h
  obtain ⟨_, -, _, -, _, -, _, -, _, -, facts, hfacts, rfl⟩ := h
  exact ordered_of_members? hmetadata hfacts

theorem Node.proper_of_ofMembers? {isVoid : Json → Bool} {members : List (String × Json)}
    {node : Node} (hmembers : (obj members).Ordered)
    (h : Node.ofMembers? isVoid members = some node) : node.Proper := by
  simp only [Node.ofMembers?, Option.bind_eq_bind, Option.bind_eq_some_iff] at h
  obtain ⟨_, -, _, -, _, -, _, -, _, -, metadata, hmetadata, h⟩ := h
  exact Node.proper_of_ofFields? (hmembers.member? hmetadata) h

/-- **A node that is read from an ordered value is proper.** -/
theorem Node.proper_of_ofJson? {value : Json} {node : Node} (hvalue : value.Ordered)
    (h : Node.ofJson? value = some node) : node.Proper := by
  unfold Node.ofJson? at h
  split at h
  · exact Node.proper_of_ofMembers? hvalue h
  · exact Node.proper_of_ofFields? (ordered_arr_iff.mp hvalue _ (by simp)) h
  · cases h

theorem RatedNode.proper_of_ofJson? {value : Json} {rated : RatedNode} (hvalue : value.Ordered)
    (h : RatedNode.ofJson? value = some rated) : rated.node.Proper := by
  cases value with
  | obj members =>
      simp only [RatedNode.ofJson?, Option.bind_eq_bind, Option.bind_eq_some_iff, Option.pure_def,
        Option.some.injEq] at h
      obtain ⟨node, hnode, _, -, _, -, rfl⟩ := h
      exact Node.proper_of_ofMembers? hvalue hnode
  | _ => cases h

/-- The keys of a node in the order of its fields. -/
def Node.keys : List String :=
  ["id", "label", "type", "file_path", "line_number", "metadata"]

/-- **The array of the fields of a node** is read as the object with these fields. -/
theorem Node.ofJson?_arr {members : List (String × Json)} {items : List Json}
    (h : (Node.keys.mapM fun key => member? key members) = some items) :
    Node.ofJson? (.arr items) = Node.ofJson? (.obj members) := by
  simp only [Node.keys, List.mapM_cons, List.mapM_nil, Option.bind_eq_bind,
    Option.bind_eq_some_iff, Option.pure_def, Option.some.injEq] at h
  obtain ⟨id, hid, _, ⟨label, hlabel, _, ⟨kind, hkind, _, ⟨path, hpath, _, ⟨line, hline, _,
    ⟨metadata, hmetadata, _, rfl, rfl⟩, rfl⟩, rfl⟩, rfl⟩, rfl⟩, rfl⟩ := h
  simp only [Node.ofJson?, Node.ofMembers?, hid, hlabel, hkind, hpath, hline, hmetadata,
    Option.bind_eq_bind, Option.bind_some]

/-! ## Edges -/

/-- The facts about an edge are sorted by key. -/
def Edge.Proper (edge : Edge) : Prop :=
  (obj edge.metadata).Ordered

instance (edge : Edge) : Decidable edge.Proper :=
  inferInstanceAs (Decidable (obj edge.metadata).Ordered)

/-- **An edge reads back.** -/
theorem Edge.ofJson?_toJson {form : Json → Json} (hform : Rearranges form) {edge : Edge}
    (hedge : edge.Proper) :
    Edge.ofJson? (form edge.toJson) = some edge := by
  obtain ⟨moved, hwritten, hmoved⟩ := hform.obj [("source", .str edge.source),
    ("target", .str edge.target), ("type", .str edge.kind.name), ("metadata", .obj edge.metadata)]
    (by simp)
  have hsource : member? "source" moved = some (.str edge.source) :=
    (hmoved "source").trans (congrArg some (hform.str _))
  have htarget : member? "target" moved = some (.str edge.target) :=
    (hmoved "target").trans (congrArg some (hform.str _))
  have hkind : member? "type" moved = some (.str edge.kind.name) :=
    (hmoved "type").trans (congrArg some (hform.str _))
  have hmetadata : member? "metadata" moved = some (.obj edge.metadata) :=
    (hmoved "metadata").trans (congrArg some (hform.ordered hedge))
  rw [Edge.toJson, hwritten]
  simp only [Edge.ofJson?, hsource, htarget, hkind, hmetadata, Option.bind_eq_bind,
    Option.bind_some, Edge.ofFields?, string?, members?, kindOf?_name EdgeKind.ofName?_name,
    Option.pure_def]

/-- **An edge that is read from an ordered value is proper.** -/
theorem Edge.proper_of_ofJson? {value : Json} {edge : Edge} (hvalue : value.Ordered)
    (h : Edge.ofJson? value = some edge) : edge.Proper := by
  have hfields : ∀ {source target kind metadata : Json}, metadata.Ordered →
      Edge.ofFields? source target kind metadata = some edge → edge.Proper := by
    intro source target kind metadata hmetadata h
    simp only [Edge.ofFields?, Option.bind_eq_bind, Option.bind_eq_some_iff, Option.pure_def,
      Option.some.injEq] at h
    obtain ⟨_, -, _, -, _, -, facts, hfacts, rfl⟩ := h
    exact ordered_of_members? hmetadata hfacts
  unfold Edge.ofJson? at h
  split at h
  · simp only [Option.bind_eq_bind, Option.bind_eq_some_iff] at h
    obtain ⟨_, -, _, -, _, -, metadata, hmetadata, h⟩ := h
    exact hfields (hvalue.member? hmetadata) h
  · exact hfields (ordered_arr_iff.mp hvalue _ (by simp)) h
  · cases h

/-- The keys of an edge in the order of its fields. -/
def Edge.keys : List String :=
  ["source", "target", "type", "metadata"]

/-- **The array of the fields of an edge** is read as the object with these fields. -/
theorem Edge.ofJson?_arr {members : List (String × Json)} {items : List Json}
    (h : (Edge.keys.mapM fun key => member? key members) = some items) :
    Edge.ofJson? (.arr items) = Edge.ofJson? (.obj members) := by
  simp only [Edge.keys, List.mapM_cons, List.mapM_nil, Option.bind_eq_bind,
    Option.bind_eq_some_iff, Option.pure_def, Option.some.injEq] at h
  obtain ⟨source, hsource, _, ⟨target, htarget, _, ⟨kind, hkind, _, ⟨metadata, hmetadata, _, rfl,
    rfl⟩, rfl⟩, rfl⟩, rfl⟩ := h
  simp only [Edge.ofJson?, hsource, htarget, hkind, hmetadata, Option.bind_eq_bind,
    Option.bind_some]

/-! ## Tables -/

section

variable {κ β : Type} {kinds : List κ} {name : κ → String}

/-- Looking up all kinds in their order finds a table that is in this order. -/
theorem filterMap_member?_eq_map (hname : Function.Injective name) (hkinds : kinds.Nodup)
    {table : List (κ × β)} (htable : (table.map Prod.fst).Sublist kinds) (write : β → Json) :
    (kinds.filterMap fun kind =>
        (member? (name kind) (table.map fun entry => (name entry.1, write entry.2))).map
          fun v => (kind, v))
      = table.map fun entry => (entry.1, write entry.2) := by
  induction kinds generalizing table with
  | nil =>
      obtain rfl : table = [] := List.map_eq_nil_iff.mp (List.sublist_nil.mp htable)
      rfl
  | cons kind rest ih =>
      obtain ⟨hnew, hrest⟩ := List.nodup_cons.mp hkinds
      rcases List.sublist_cons_iff.mp htable with hbelow | ⟨keys, hkeys, hbelow⟩
      · -- the table has no entry for the first kind
        have hnone : member? (name kind)
            (table.map fun entry => (name entry.1, write entry.2)) = none := by
          refine member?_eq_none_iff.mpr fun hmem => hnew (hbelow.subset ?_)
          rw [List.map_map] at hmem
          obtain ⟨entry, hentry, heq⟩ := List.mem_map.mp hmem
          exact hname heq ▸ List.mem_map_of_mem hentry
        rw [List.filterMap_cons, hnone, ih hrest hbelow]
        rfl
      · cases table with
        | nil => cases hkeys
        | cons entry others =>
            obtain ⟨rfl, rfl⟩ := List.cons.inj hkeys
            -- the first entry is not seen by look-ups of later kinds
            have hsame : ∀ k ∈ rest,
                (member? (name k)
                    ((entry :: others).map fun entry => (name entry.1, write entry.2))).map
                  (fun v => (k, v))
                = (member? (name k) (others.map fun entry => (name entry.1, write entry.2))).map
                  fun v => (k, v) := by
              intro k hk
              have hne : name entry.1 ≠ name k := fun heq => hnew (hname heq ▸ hk)
              rw [List.map_cons, member?, if_neg hne]
            rw [List.filterMap_cons, List.filterMap_congr hsame, ih hrest hbelow, List.map_cons,
              member?, if_pos rfl]
            rfl

/-- A table reads back if it is in the order of the kinds. -/
theorem tableOfJson?_tableToJson {form : Json → Json} (hform : Rearranges form)
    (hname : Function.Injective name) (hkinds : kinds.Nodup) {table : List (κ × β)}
    (htable : (table.map Prod.fst).Sublist kinds) {write : β → Json} {read : Json → Option β}
    (hread : ∀ x, read (form (write x)) = some x) :
    tableOfJson? kinds name read (form (tableToJson name write table)) = some table := by
  have hkeys : ((table.map fun entry => (name entry.1, write entry.2)).map Prod.fst)
      = (table.map Prod.fst).map name := by
    rw [List.map_map, List.map_map]
    rfl
  obtain ⟨moved, hwritten, hmoved⟩ := hform.obj
    (table.map fun entry => (name entry.1, write entry.2))
    (hkeys ▸ (hkinds.sublist htable).map hname)
  have hlook : ∀ kind, member? (name kind) moved
      = member? (name kind) (table.map fun entry => (name entry.1, form (write entry.2))) := by
    intro kind
    rw [hmoved, ← member?_map_value, List.map_map]
    rfl
  have hknown : (moved.all fun m => kinds.any fun kind => name kind = m.1) = true := by
    -- every moved member was found before, and so its key is the name of a kind
    refine List.all_eq_true.mpr fun m hm => List.any_eq_true.mpr ?_
    have hfound : member? m.1 moved ≠ none := fun hnone =>
      member?_eq_none_iff.mp hnone (List.mem_map_of_mem hm)
    rw [hmoved, Ne, Option.map_eq_none_iff, member?_eq_none_iff, not_not, hkeys] at hfound
    obtain ⟨kind, hkind, heq⟩ := List.mem_map.mp hfound
    exact ⟨kind, htable.subset hkind, decide_eq_true heq⟩
  rw [tableToJson, hwritten]
  simp only [tableOfJson?, hknown, if_true, hlook]
  rw [filterMap_member?_eq_map hname hkinds htable fun x => form (write x)]
  exact mapM_map_eq_some fun entry _ => by rw [hread]; rfl

/-- The kinds that are looked up with success are in the order of the kinds. -/
theorem map_fst_filterMap_sublist (look : κ → Option Json) :
    ((kinds.filterMap fun kind => (look kind).map fun v => (kind, v)).map Prod.fst).Sublist
      kinds := by
  induction kinds with
  | nil => exact List.Sublist.slnil
  | cons kind rest ih =>
      rw [List.filterMap_cons]
      cases look kind with
      | none => exact ih.cons kind
      | some v => exact ih.cons_cons kind

/-- A table that was read is in the order of the kinds. -/
theorem sublist_of_tableOfJson? {read : Json → Option β} {value : Json} {table : List (κ × β)}
    (h : tableOfJson? kinds name read value = some table) :
    (table.map Prod.fst).Sublist kinds := by
  have hkeys : ∀ (entries : List (κ × Json)) (table : List (κ × β)),
      (entries.mapM fun entry => (read entry.2).map fun value => (entry.1, value)) = some table →
        table.map Prod.fst = entries.map Prod.fst := by
    intro entries
    induction entries with
    | nil =>
        intro table h
        obtain rfl := Option.some.inj h
        rfl
    | cons entry rest ih =>
        intro table h
        rw [List.mapM_cons] at h
        simp only [Option.bind_eq_bind, Option.bind_eq_some_iff, Option.pure_def,
          Option.some.injEq, Option.map_eq_some_iff] at h
        obtain ⟨first, ⟨v, -, rfl⟩, others, hothers, rfl⟩ := h
        rw [List.map_cons, List.map_cons, ih others hothers]
  cases value with
  | obj members =>
      rw [tableOfJson?] at h
      split at h
      · rw [hkeys _ _ h]
        exact map_fst_filterMap_sublist fun kind => member? (name kind) members
      · cases h
  | _ => cases h

end

/-! ## Reports -/

/-- The facts in a report are sorted by key, and its tables are in the order of the legend. -/
structure Report.Proper (report : Report) : Prop where
  nodes : ∀ rated ∈ report.nodes, rated.node.Proper
  edges : ∀ edge ∈ report.edges, edge.Proper
  nodeColors : (report.nodeColors.map Prod.fst).Sublist NodeKind.all
  edgeColors : (report.edgeColors.map Prod.fst).Sublist EdgeKind.all
  nodeCounts : (report.nodeCounts.map Prod.fst).Sublist NodeKind.all
  edgeCounts : (report.edgeCounts.map Prod.fst).Sublist EdgeKind.all

theorem NodeKind.name_injective : Function.Injective NodeKind.name := fun a b h =>
  Option.some.inj (ofName?_name a ▸ ofName?_name b ▸ congrArg ofName? h)

theorem EdgeKind.name_injective : Function.Injective EdgeKind.name := fun a b h =>
  Option.some.inj (ofName?_name a ▸ ofName?_name b ▸ congrArg ofName? h)

/-- The members that a report is written as. -/
def Report.members (report : Report) : List (String × Json) :=
  [("nodes", .arr (report.nodes.map RatedNode.toJson)),
    ("edges", .arr (report.edges.map Edge.toJson)),
    ("node_colors", tableToJson NodeKind.name .str report.nodeColors),
    ("edge_colors", tableToJson EdgeKind.name .str report.edgeColors),
    ("node_type_counts", tableToJson NodeKind.name (fun n => .int (n : Nat)) report.nodeCounts),
    ("edge_type_counts", tableToJson EdgeKind.name (fun n => .int (n : Nat)) report.edgeCounts),
    ("stats", report.totals.toJson)] ++
    report.repository.toList.map fun name => ("repo_name", .str name)

theorem Report.toJson_eq (report : Report) : report.toJson = .obj report.members := by
  rw [toJson, members]
  cases report.repository <;> rfl

theorem Report.nodup_members (report : Report) : (report.members.map Prod.fst).Nodup := by
  rw [members]
  cases report.repository <;> simp

section

variable {form : Json → Json} (hform : Rearranges form)

include hform

theorem Totals.ofJson?_toJson (totals : Totals) :
    Totals.ofJson? (form totals.toJson) = some totals := by
  obtain ⟨moved, hwritten, hmoved⟩ := hform.obj
    [("total_nodes", .int totals.nodes), ("total_edges", .int totals.edges)] (by simp)
  have hnodes : member? "total_nodes" moved = some (.int totals.nodes) :=
    (hmoved "total_nodes").trans (congrArg some (hform.int _))
  have hedges : member? "total_edges" moved = some (.int totals.edges) :=
    (hmoved "total_edges").trans (congrArg some (hform.int _))
  rw [Totals.toJson, hwritten]
  simp only [Totals.ofJson?, hnodes, hedges, Option.bind_eq_bind, Option.bind_some]
  rfl

/-- **A report reads back**, whether its repository is named or not. -/
theorem Report.ofJson?_toJson {report : Report} (h : report.Proper) :
    Report.ofJson? (form report.toJson) = some report := by
  obtain ⟨moved, hwritten, hmoved⟩ := hform.obj report.members report.nodup_members
  have hnodes : (form (.arr (report.nodes.map RatedNode.toJson))).listOf? RatedNode.ofJson?
      = some report.nodes :=
    hform.listOf? fun rated hrated => RatedNode.ofJson?_toJson hform (h.nodes rated hrated)
  have hedges : (form (.arr (report.edges.map Edge.toJson))).listOf? Edge.ofJson?
      = some report.edges :=
    hform.listOf? fun edge hedge => Edge.ofJson?_toJson hform (h.edges edge hedge)
  have htext : ∀ s, string? (form (.str s)) = some s := fun s => by rw [hform.str]; rfl
  have hcount : ∀ n : Nat, nat? (form (.int n)) = some n := fun n => by rw [hform.int]; rfl
  have hnodeColors := tableOfJson?_tableToJson hform NodeKind.name_injective (by decide)
    h.nodeColors htext
  have hedgeColors := tableOfJson?_tableToJson hform EdgeKind.name_injective (by decide)
    h.edgeColors htext
  have hnodeCounts := tableOfJson?_tableToJson hform NodeKind.name_injective (by decide)
    h.nodeCounts hcount
  have hedgeCounts := tableOfJson?_tableToJson hform EdgeKind.name_injective (by decide)
    h.edgeCounts hcount
  have hrepository : repositoryOf? ((member? "repo_name" moved).getD .null)
      = some report.repository := by
    rw [hmoved, Report.members]
    cases report.repository with
    | none => rfl
    | some name =>
        change repositoryOf? (form (.str name)) = some (some name)
        rw [hform.str]
        rfl
  have hlook : ∀ key value, member? key report.members = some value →
      member? key moved = some (form value) := fun key value hvalue => by
    rw [hmoved, hvalue, Option.map_some]
  rw [Report.toJson_eq, hwritten]
  simp only [Report.ofJson?, hlook "nodes" _ rfl, hlook "edges" _ rfl, hlook "node_colors" _ rfl,
    hlook "edge_colors" _ rfl, hlook "node_type_counts" _ rfl, hlook "edge_type_counts" _ rfl,
    hlook "stats" _ rfl, Option.bind_eq_bind, Option.bind_some, Report.ofFields?, hnodes, hedges,
    hnodeColors, hedgeColors, hnodeCounts, hedgeCounts, Totals.ofJson?_toJson hform, hrepository]
  rfl

end

theorem Report.proper_of_ofFields? {nodes edges nodeColors edgeColors nodeCounts edgeCounts totals
    repository : Json} {report : Report} (hnodes : nodes.Ordered) (hedges : edges.Ordered)
    (h : Report.ofFields? nodes edges nodeColors edgeColors nodeCounts edgeCounts totals repository
      = some report) : report.Proper := by
  simp only [Report.ofFields?, Option.bind_eq_bind, Option.bind_eq_some_iff, Option.pure_def,
    Option.some.injEq] at h
  obtain ⟨ratedNodes, hrated, readEdges, hread, _, hnodeColors, _, hedgeColors, _, hnodeCounts, _,
    hedgeCounts, _, -, _, -, rfl⟩ := h
  refine ⟨fun rated hmem => ?_, fun edge hmem => ?_, sublist_of_tableOfJson? hnodeColors,
    sublist_of_tableOfJson? hedgeColors, sublist_of_tableOfJson? hnodeCounts,
    sublist_of_tableOfJson? hedgeCounts⟩
  · obtain ⟨item, hitem, hrated⟩ := exists_ordered_of_listOf? hnodes hrated rated hmem
    exact RatedNode.proper_of_ofJson? hitem hrated
  · obtain ⟨item, hitem, hread⟩ := exists_ordered_of_listOf? hedges hread edge hmem
    exact Edge.proper_of_ofJson? hitem hread

/-- **A report that is read from an ordered value is proper.** -/
theorem Report.proper_of_ofJson? {value : Json} {report : Report} (hvalue : value.Ordered)
    (h : Report.ofJson? value = some report) : report.Proper := by
  unfold Report.ofJson? at h
  split at h
  · simp only [Option.bind_eq_bind, Option.bind_eq_some_iff] at h
    obtain ⟨_, hnodes, _, hedges, _, -, _, -, _, -, _, -, _, -, h⟩ := h
    exact Report.proper_of_ofFields? (hvalue.member? hnodes) (hvalue.member? hedges) h
  · rw [ordered_arr_iff] at hvalue
    exact Report.proper_of_ofFields? (hvalue _ (by simp)) (hvalue _ (by simp)) h
  · rw [ordered_arr_iff] at hvalue
    exact Report.proper_of_ofFields? (hvalue _ (by simp)) (hvalue _ (by simp)) h
  · cases h

end Cartograph
