import Cartograph.Proofs.Finds
import Cartograph.Proofs.Fragment.Sorts
import Cartograph.Proofs.Graph.Metadata
import Cartograph.Proofs.Graph.Settling
import Mathlib.Data.Set.Function
import Mathlib.Order.Lattice.Nat

/-!
# Routes of script files

A route is told by its verb and its path. The same route may be set up again and again, and then it
is one endpoint, on the line where it is set up first. The identifier puts the verb in capitals in
front of the path, and as no verb has a colon the two can be told from one another whatever the path
is. Main statement: `Script.routes_declared`.
-/

namespace Cartograph

namespace Script

open Pattern

/-! ## What a route captures -/

/-- The verbs by which routes are set up. -/
def verbs : List String :=
  ["get", "post", "put", "patch", "delete", "all", "use", "head", "options"]

/-- **A route captures** a verb and a path. -/
theorem captures_route :
    route.Captures fun captures => ∃ verb ∈ verbs, ∃ path, captures = [verb, path] := by
  have hcall : (oneOf ["app", "router", "server"] ++ blanks ++ text "." ++ blanks).Silent :=
    (((silent_oneOf _).append_right (silent_run _ _)).append_right (silent_text _)).append_right
      (silent_run _ _)
  have hpath : (quoted 0).Captures fun captures => ∃ path, captures = [path] :=
    ((silent_one _).append_left (captures_capture (silent_run _ _))).append_right (silent_one _)
  have hverb := (((hcall.append_left (captures_capture_oneOf verbs)).append_right
    (silent_run 0 Text.isBlank)).append_right (silent_text "(")).append_right
      (silent_run 0 Text.isBlank)
  have hroute : route.Captures _ := (hverb.append hpath).append_right (silent_run 0 Text.isBlank)
  intro cs found h
  obtain ⟨_, ⟨verb, hknown, rfl⟩, _, ⟨path, rfl⟩, heq⟩ := hroute h
  exact ⟨verb, hknown, path, heq⟩

/-- A route with this verb and this path is set up at the place. -/
def RouteAt (text : List Char) (verb path : String) (place : Nat) : Prop :=
  ∃ found, (place, found) ∈ route.finds text ∧ found.captures = [verb, path]

/-- What is found as a route has a verb and a path. -/
theorem exists_of_mem_finds_route {text : List Char} {entry : Nat × Found}
    (h : entry ∈ route.finds text) :
    ∃ verb ∈ verbs, ∃ path, entry.2.captures = [verb, path] :=
  captures_route ((leftmost_finds route text).fits entry h).2

theorem RouteAt.mem_verbs {text : List Char} {verb path : String} {place : Nat}
    (h : RouteAt text verb path place) : verb ∈ verbs := by
  obtain ⟨found, hfound, heq⟩ := h
  obtain ⟨known, hknown, other, hcaptures⟩ := exists_of_mem_finds_route hfound
  rw [heq] at hcaptures
  obtain ⟨rfl, -⟩ := List.cons.inj hcaptures
  exact hknown

/-! ## Identifiers of routes -/

/-- The identifier of a route. -/
def routeId (file : SourceFile) (verb path : String) : String :=
  endpointId file.path (Text.asciiUppercase verb ++ ":" ++ path)

/-- Verbs in capitals have no colon and differ from one another. -/
theorem uppercase_verbs : ∀ verb ∈ verbs, ':' ∉ (Text.asciiUppercase verb).toList ∧
    ∀ other ∈ verbs, Text.asciiUppercase verb = Text.asciiUppercase other → verb = other := by
  decide

/-- **The verb and the path are read off the identifier**, whatever the path is. -/
theorem eq_of_routeId {file : SourceFile} {verb other path target : String} (hverb : verb ∈ verbs)
    (hother : other ∈ verbs) (h : routeId file verb path = routeId file other target) :
    verb = other ∧ path = target := by
  obtain ⟨hverbs, hpath⟩ := eq_of_colon_append (endpointId_injective h)
    (uppercase_verbs verb hverb).1 (uppercase_verbs other hother).1
  exact ⟨(uppercase_verbs verb hverb).2 other hother hverbs, hpath⟩

/-! ## The endpoints of a file -/

/-- The node of a route that was found. -/
def routeNode? (file : SourceFile) (found : Pattern.Occurrence) : Option Node :=
  match found.captures with
  | verb :: path :: _ => some (routeNode file found.line verb path)
  | _ => none

section

variable {file : SourceFile} {text : List Char}

theorem routeContents_eq (file : SourceFile) (found : Pattern.Occurrence) :
    routeContents file found =
      { nodes := (routeNode? file found).toList
        edges := (routeNode? file found).toList.map (ownedEdge file .endpointHandler) } := by
  unfold routeContents routeNode?
  rcases found.captures with _ | ⟨verb, _ | ⟨path, rest⟩⟩ <;> rfl

theorem edges_fragment (file : SourceFile) (text : List Char) :
    (fragment file text).edges.toList = (contents file text).edges := by
  simp [fragment_eq_put, Graph.put]

/-- The endpoints are all nodes with the identifier of an endpoint. -/
theorem filter_contents_endpoint (file : SourceFile) (text : List Char) :
    (contents file text).nodes.filter (Node.isOf "endpoint")
      = (route.occurrences text).filterMap (routeNode? file) := by
  have hroutes : ∀ found, (routeContents file found).nodes.filter (Node.isOf "endpoint")
      = (routeNode? file found).toList := by
    intro found
    unfold routeContents routeNode?
    rcases found.captures with _ | ⟨verb, _ | ⟨path, rest⟩⟩ <;> simp [Contents.owned]
  simp only [contents, Contents.nodes_append, List.filter_append, Contents.nodes_all_edges,
    Contents.filter_nodes_all hroutes,
    Contents.filter_nodes_all_eq_nil
      (filter_classContents file (by decide : "class" ≠ "endpoint") (by decide)),
    Contents.filter_nodes_all_eq_nil
      (filter_functionContents file (by decide : "func" ≠ "endpoint")),
    Contents.filter_nodes_all_eq_nil (filter_modelContents file (by decide : "model" ≠ "endpoint"))]
  split <;> simp [Contents.owned]

theorem nodesOf_endpoint (file : SourceFile) (text : List Char) :
    (fragment file text).nodesOf "endpoint"
      = firsts ((route.finds text).filterMap fun entry =>
          routeNode? file (occurrenceAt text entry)) := by
  rw [fragment_eq_put, file.nodesOf_put (by decide), filter_contents_endpoint, occurrences_eq_map,
    List.filterMap_map]
  rfl

/-- What was found as a route has this identifier exactly if it has the verb and the path. -/
theorem gives_routeNode?_iff {verb path : String} (hverb : verb ∈ verbs) {entry : Nat × Found}
    (h : entry ∈ route.finds text) :
    (∃ node, routeNode? file (occurrenceAt text entry) = some node ∧
        node.id = routeId file verb path) ↔ entry.2.captures = [verb, path] := by
  obtain ⟨known, hknown, other, hcaptures⟩ := exists_of_mem_finds_route h
  have hnode : routeNode? file (occurrenceAt text entry)
      = some (routeNode file (lineAt text entry.1) known other) := by
    rw [routeNode?, occurrenceAt, hcaptures]
  rw [hnode, hcaptures]
  constructor
  · rintro ⟨node, heq, hid⟩
    obtain rfl := Option.some.inj heq
    obtain ⟨rfl, rfl⟩ := eq_of_routeId hknown hverb hid
    rfl
  · intro heq
    obtain ⟨rfl, hrest⟩ := List.cons.inj heq
    obtain ⟨rfl, -⟩ := List.cons.inj hrest
    exact ⟨_, rfl, rfl⟩

/-- **The endpoints of a file**: one for each route, on the line where the route is set up first. -/
theorem mem_nodesOf_endpoint_iff {node : Node} :
    node ∈ (fragment file text).nodesOf "endpoint" ↔ ∃ verb path place,
      IsLeast {place | RouteAt text verb path place} place ∧
        node = routeNode file (lineAt text place) verb path := by
  rw [nodesOf_endpoint, mem_firsts_filterMap_iff, Prod.exists]
  constructor
  · rintro ⟨place, found, hfirst, hnode⟩
    obtain ⟨verb, hverb, path, hcaptures⟩ := exists_of_mem_finds_route hfirst.mem
    rw [routeNode?, occurrenceAt, hcaptures] at hnode
    obtain rfl := Option.some.inj hnode
    -- the first find with this identifier is the first find of the route
    have hroute := hfirst.congr fun entry hentry => gives_routeNode?_iff hverb hentry
    exact ⟨verb, path, place, exists_firstWith_finds_iff.mp ⟨found, hroute⟩, rfl⟩
  · rintro ⟨verb, path, place, hleast, rfl⟩
    obtain ⟨found, hfirst⟩ := exists_firstWith_finds_iff.mpr hleast
    have hverb := RouteAt.mem_verbs hleast.1
    refine ⟨place, found, ?_, ?_⟩
    · exact hfirst.congr fun entry hentry => (gives_routeNode?_iff hverb hentry).symm
    · have hcaptures : found.captures = [verb, path] := hfirst.holds
      rw [routeNode?, occurrenceAt, hcaptures]

/-! ## Edges to handlers -/

/-- **The edges to handlers** are one for each time that an endpoint is put in. -/
theorem filter_contents_handler (file : SourceFile) (text : List Char) :
    ((contents file text).edges.filter fun edge => edge.kind = .endpointHandler)
      = ((contents file text).nodes.filter (Node.isOf "endpoint")).map
          (ownedEdge file .endpointHandler) := by
  have hmarks : ∀ kind : EdgeKind, kind.IsMark →
      decide ((Edge.marker file.id kind).kind = .endpointHandler) = false := by
    intro kind hkind
    exact decide_eq_false (hkind.ne (by decide : ¬ EdgeKind.endpointHandler.IsMark))
  have hroutes : ∀ found, ((routeContents file found).edges.filter fun edge =>
      edge.kind = .endpointHandler)
        = (routeNode? file found).toList.map (ownedEdge file .endpointHandler) := by
    intro found
    rw [routeContents_eq]
    refine List.filter_eq_self.mpr fun edge hedge => ?_
    obtain ⟨node, -, rfl⟩ := List.mem_map.mp hedge
    rfl
  have hclasses : ∀ found ∈ classDeclaration.occurrences text,
      ((classContents file found).edges.filter fun edge => edge.kind = .endpointHandler) = [] := by
    intro found _
    unfold classContents
    split <;> simp [Contents.owned, Contents.base, List.filter_flatMap]
  have hfunctions : ∀ found ∈ functions text,
      ((functionContents file found).edges.filter fun edge => edge.kind = .endpointHandler) = [] :=
    fun _ _ => rfl
  have hmodels : ∀ found ∈ models text,
      ((modelContents file found).edges.filter fun edge => edge.kind = .endpointHandler) = [] :=
    fun _ _ => rfl
  have hrouter : ((if routerSetUp.occursIn text then Contents.owned file .uses (routerNode file)
      else {}).edges.filter fun edge => edge.kind = .endpointHandler) = [] := by
    split <;> rfl
  rw [filter_edges_contents_of_entities (fun _ => rfl) hmarks,
    List.flatMap_eq_nil_iff.mpr hclasses, List.flatMap_eq_nil_iff.mpr hfunctions,
    List.flatMap_eq_nil_iff.mpr hmodels, hrouter, filter_contents_endpoint,
    List.filterMap_eq_flatMap_toList, List.map_flatMap]
  simp [hroutes]

/-- An edge to a handler is the one that its end has from the file. -/
theorem eq_ownedEdge_of_handler {edge : Edge} {node : Node}
    (h : edge ∈ (fragment file text).edges.toList) (htarget : edge.target = node.id)
    (hkind : edge.kind = .endpointHandler) : edge = ownedEdge file .endpointHandler node := by
  have hedge : edge ∈ (contents file text).edges.filter fun e => e.kind = .endpointHandler := by
    rw [edges_fragment] at h
    exact List.mem_filter.mpr ⟨h, decide_eq_true hkind⟩
  rw [filter_contents_handler] at hedge
  obtain ⟨other, -, rfl⟩ := List.mem_map.mp hedge
  exact ownedEdge_congr htarget

/-- An endpoint comes with its edge. -/
theorem ownedEdge_mem_of_endpoint {node : Node}
    (h : node ∈ (fragment file text).nodesOf "endpoint") :
    ownedEdge file .endpointHandler node ∈ (fragment file text).edges.toList := by
  have hput : node ∈ (contents file text).nodes.filter (Node.isOf "endpoint") := by
    rw [fragment_eq_put, file.nodesOf_put (by decide)] at h
    exact mem_of_mem_firsts h
  have hedge := List.mem_map_of_mem (f := ownedEdge file .endpointHandler) hput
  rw [← filter_contents_handler] at hedge
  rw [edges_fragment]
  exact (List.mem_filter.mp hedge).1

/-- Settling keeps the edge of an endpoint, as no other edge has its triple. -/
theorem ownedEdge_mem_settle {node : Node} (h : node ∈ (fragment file text).nodesOf "endpoint") :
    ownedEdge file .endpointHandler node ∈ (fragment file text).settle.edges.toList := by
  have hedge := ownedEdge_mem_of_endpoint h
  -- the first edge with the triple is an edge to the same endpoint, so it is this one
  obtain ⟨first, hfirst, htriple⟩ := Graph.exists_isFirst hedge
  simp only [Edge.triple, Prod.mk.injEq] at htriple
  obtain rfl := eq_ownedEdge_of_handler hfirst.mem htriple.2.1 htriple.2.2
  rcases (grown_fragment file text).mem_edges hedge with ⟨-, hends⟩ | ⟨target, -, himport⟩
  · exact Graph.mem_edges_settle.mpr ⟨hends, hfirst⟩
  · cases congrArg Edge.kind himport

/-- **Every endpoint has one edge** once the edges are settled. -/
theorem handler_settle {node : Node} (h : node ∈ (fragment file text).nodesOf "endpoint") :
    ((fragment file text).settle.edges.toList.filter fun edge =>
        edge.target = node.id ∧ edge.kind = .endpointHandler)
      = [ownedEdge file .endpointHandler node] := by
  have hnodup : (fragment file text).settle.edges.toList.Nodup :=
    List.Nodup.of_map _ (Graph.nodup_triples_settle _)
  refine eq_singleton_of_nodup (hnodup.filter _) fun edge => ?_
  rw [List.mem_filter, decide_eq_true_iff]
  constructor
  · rintro ⟨hedge, htarget, hkind⟩
    exact eq_ownedEdge_of_handler (Graph.mem_edges_settle.mp hedge).2.mem htarget hkind
  · rintro rfl
    exact ⟨ownedEdge_mem_settle h, rfl, rfl⟩

/-! ## Main result -/

/-- The node tells what the route that is set up here says. -/
structure TellsRoute (file : SourceFile) (text : List Char) (node : Node) (verb path : String)
    (place : Nat) : Prop where
  id_eq : node.id = routeId file verb path
  kind_eq : node.kind = if verb = "use" then .middleware else .endpoint
  path_eq : node.path = file.path
  line_eq : node.line = UInt32.ofNat (lineAt text place)
  line_exact : text.count '\n' + 1 < UInt32.size → node.line.toNat = lineAt text place
  method : node.fact? "method" = some (.str (Text.asciiUppercase verb))
  target : node.fact? "path" = some (.str path)

theorem tellsRoute_routeNode (file : SourceFile) (text : List Char) (verb path : String)
    (place : Nat) :
    TellsRoute file text (routeNode file (lineAt text place) verb path) verb path place where
  id_eq := rfl
  kind_eq := rfl
  path_eq := rfl
  line_eq := rfl
  line_exact h := toNat_lineAt h place
  method := by rw [routeNode, Node.fact?_note_of_ne _ (by decide), Node.fact?_note]
  target := by rw [routeNode, Node.fact?_note]

/-- The graph has one endpoint for each route of the text, which tells where the route is set up
first and has one edge from the file. -/
structure DeclaresRoutes (file : SourceFile) (text : List Char) (g : Graph) : Prop where
  /-- No identifier of an endpoint stands twice. -/
  nodup : ((g.nodesOf "endpoint").map Node.id).Nodup
  /-- Routes with different verbs or paths are different endpoints, and no others are there. -/
  bijOn : Set.BijOn (fun r : String × String => routeId file r.1 r.2)
    {r | ∃ place, RouteAt text r.1 r.2 place} {id | id ∈ (g.nodesOf "endpoint").map Node.id}
  /-- An endpoint tells what is said where its route is set up first. -/
  first : ∀ node ∈ g.nodesOf "endpoint", ∃ verb path place,
    IsLeast {place | RouteAt text verb path place} place ∧ TellsRoute file text node verb path place
  /-- Of the settled edges to handlers one leads to an endpoint, and it comes from the file. -/
  handled : ∀ node ∈ g.nodesOf "endpoint",
    (g.settle.edges.toList.filter fun edge =>
        edge.target = node.id ∧ edge.kind = .endpointHandler)
      = [{ source := file.id, target := node.id, kind := .endpointHandler }]

theorem bijOn_routeId (file : SourceFile) (text : List Char) :
    Set.BijOn (fun r : String × String => routeId file r.1 r.2)
      {r | ∃ place, RouteAt text r.1 r.2 place}
      {id | id ∈ ((fragment file text).nodesOf "endpoint").map Node.id} := by
  refine ⟨?_, ?_, ?_⟩
  · rintro ⟨verb, path⟩ hroute
    have hleast := isLeast_csInf (s := {place | RouteAt text verb path place}) hroute
    exact List.mem_map.mpr ⟨_, mem_nodesOf_endpoint_iff.mpr ⟨verb, path, _, hleast, rfl⟩, rfl⟩
  · rintro ⟨verb, path⟩ ⟨place, hroute⟩ ⟨other, target⟩ ⟨elsewhere, hother⟩ hid
    obtain ⟨rfl, rfl⟩ := eq_of_routeId hroute.mem_verbs hother.mem_verbs hid
    rfl
  · intro id hid
    obtain ⟨node, hnode, rfl⟩ := List.mem_map.mp hid
    obtain ⟨verb, path, place, hleast, rfl⟩ := mem_nodesOf_endpoint_iff.mp hnode
    exact ⟨(verb, path), ⟨place, hleast.1⟩, rfl⟩

/-- **The routes of a file are its endpoints**, whatever the text is: one for each verb and path
that are found together, with one edge from the file however often the route is set up. -/
theorem routes_declared (file : SourceFile) (text : List Char) :
    DeclaresRoutes file text (fragment file text) where
  nodup := by
    rw [nodesOf_endpoint]
    exact nodup_firsts _
  bijOn := bijOn_routeId file text
  first node hnode := by
    obtain ⟨verb, path, place, hleast, rfl⟩ := mem_nodesOf_endpoint_iff.mp hnode
    exact ⟨verb, path, place, hleast, tellsRoute_routeNode file text verb path place⟩
  handled _ hnode := handler_settle hnode

end

end Script

end Cartograph
