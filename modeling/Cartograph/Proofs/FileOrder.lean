import Cartograph.Proofs.Graph.Interleaving
import Cartograph.Proofs.Pipeline

/-!
# The order of the files

Files are put together one after the other, and of nodes with one identifier the first one stays. So
the order of the files tells in which order nodes and edges stand, and which node stays where two
files differ about it, but nothing else: the identifiers, the edges and in the end the triples are
the same in every order (`buildGraph_perm`). Files never differ about a class known by name only.
-/

namespace Cartograph

/-! ## Look-ups in merged graphs -/

/-- A search finds the same in every order if there is only one thing to be found. -/
theorem find?_eq_of_perm {α : Type} {p : α → Bool} {l k : List α} (h : l.Perm k)
    (hone : ∀ a ∈ l, ∀ b ∈ l, p a = true → p b = true → a = b) : l.find? p = k.find? p := by
  cases hl : l.find? p with
  | none =>
      rw [List.find?_eq_none] at hl
      exact (List.find?_eq_none.mpr fun a ha => hl a (h.mem_iff.mpr ha)).symm
  | some a =>
      have ha : a ∈ l := List.mem_of_find?_eq_some hl
      have hpa : p a = true := List.find?_some hl
      have hsome : (k.find? p).isSome = true := List.find?_isSome.mpr ⟨a, h.mem_iff.mp ha, hpa⟩
      obtain ⟨b, hb⟩ := Option.isSome_iff_exists.mp hsome
      have hbl : b ∈ l := h.mem_iff.mpr (List.mem_of_find?_eq_some hb)
      rw [hb, hone a ha b hbl hpa (List.find?_some hb)]

namespace Graph

/-- Graphs are put together like anything else that is inserted. -/
theorem mergeAll_eq_build (graphs : List Graph) : mergeAll graphs = build (graphs.map .graph) := by
  rw [mergeAll, build, List.foldl_map]
  rfl

/-- **Merged graphs** hold the first of all nodes. -/
theorem nodes_mergeAll (graphs : List Graph) :
    (mergeAll graphs).nodes.toList = firsts (graphs.flatMap fun g => g.nodes.toList) := by
  rw [mergeAll_eq_build, nodes_build, insertedNodes, List.flatMap_map]
  rfl

/-- A look-up in merged graphs finds the first node that has the identifier. -/
theorem node?_mergeAll (graphs : List Graph) (id : String) : (mergeAll graphs).node? id
    = (graphs.flatMap fun g => g.nodes.toList).find? fun n => n.id = id := by
  rw [(Indexed.mergeAll graphs).node?_eq_find?, nodes_mergeAll, find?_firsts]

end Graph

section

variable {tree : FileTree} {settings : ExtractionSettings} {files : List SourceFile}

/-- The files agree about the node with an identifier, as far as they have one. -/
def AgreeAbout (tree : FileTree) (settings : ExtractionSettings) (files : List SourceFile)
    (id : String) : Prop :=
  ∀ a ∈ files, ∀ b ∈ files, ∀ m ∈ (a.contribution tree settings).nodes,
    ∀ n ∈ (b.contribution tree settings).nodes, m.id = id → n.id = id → m = n

/-- The first of all nodes that the files contribute are there, in the order of the files. -/
theorem nodes_combined : (combined tree settings files).nodes.toList
    = firsts (files.flatMap fun file => (file.contribution tree settings).nodes.toList) := by
  rw [combined, Graph.nodes_mergeAll, List.flatMap_map]

/-- A look-up finds the first node of any file that has the identifier. -/
theorem node?_combined (id : String) : (combined tree settings files).node? id
    = (files.flatMap fun file => (file.contribution tree settings).nodes.toList).find?
        fun n => n.id = id := by
  rw [combined, Graph.node?_mergeAll, List.flatMap_map]

/-- The first file keeps its nodes, whatever files come behind it. -/
theorem node?_combined_cons {file : SourceFile} {n : Node}
    (hn : n ∈ (file.contribution tree settings).nodes) (rest : List SourceFile) :
    (combined tree settings (file :: rest)).node? n.id = some n := by
  have hindexed : (file.contribution tree settings).Indexed :=
    (file.grown_contribution tree settings).indexed
  have hfound : (file.contribution tree settings).nodes.toList.find? (fun m => m.id = n.id)
      = some n := by
    rw [← hindexed.node?_eq_find?, hindexed.node?_eq_some_iff]
    exact ⟨hn, rfl⟩
  rw [node?_combined, List.flatMap_cons, List.find?_append, hfound, Option.some_or]

/-- **What files agree about** is found the same in whatever order they come. -/
theorem node?_combined_perm {others : List SourceFile} (h : files.Perm others) {id : String}
    (hagree : AgreeAbout tree settings files id) :
    (combined tree settings files).node? id = (combined tree settings others).node? id := by
  rw [node?_combined, node?_combined]
  refine find?_eq_of_perm (h.flatMap_right _) fun m hm n hn hmid hnid => ?_
  obtain ⟨a, ha, hma⟩ := List.mem_flatMap.mp hm
  obtain ⟨b, hb, hnb⟩ := List.mem_flatMap.mp hn
  exact hagree a ha b hb m (Array.mem_toList_iff.mp hma) n (Array.mem_toList_iff.mp hnb)
    (of_decide_eq_true hmid) (of_decide_eq_true hnid)

/-- A node that no file disagrees about is kept. -/
theorem node?_combined_eq_some {file : SourceFile} (hfile : file ∈ files) {n : Node}
    (hn : n ∈ (file.contribution tree settings).nodes)
    (hagree : AgreeAbout tree settings files n.id) :
    (combined tree settings files).node? n.id = some n := by
  have hknown : (combined tree settings files).contains n.id = true := by
    refine contains_combined.mpr ⟨file, hfile, ?_⟩
    rw [(file.grown_contribution tree settings).indexed.contains_iff]
    exact List.mem_map_of_mem (Array.mem_toList_iff.mpr hn)
  obtain ⟨m, hm, hid⟩ := List.mem_map.mp (combined_indexed.contains_iff.mp hknown)
  obtain ⟨other, hother, hmem⟩ := mem_nodes_of_mem_combined (Array.mem_toList_iff.mp hm)
  have hsame : m = n := hagree other hother file hfile m hmem n hn hid rfl
  rw [combined_indexed.node?_eq_some_iff]
  exact ⟨hsame ▸ Array.mem_toList_iff.mp hm, rfl⟩

/-- All files agree about a class known by name only. -/
theorem agreeAbout_classRefId (name : String) :
    AgreeAbout tree settings files (classRefId name) := by
  intro a _ b _ m hm n hn hmid hnid
  have hmref : m = Node.classRef name :=
    (a.grown_contribution tree settings).eq_classRef_of_classRefId hm hmid
  have hnref : n = Node.classRef name :=
    (b.grown_contribution tree settings).eq_classRef_of_classRefId hn hnid
  rw [hmref, hnref]

/-- The identifier occurs in the fragment of one file at most. -/
def InOneFragment (tree : FileTree) (settings : ExtractionSettings) (files : List SourceFile)
    (id : String) : Prop :=
  ∀ a ∈ files, ∀ b ∈ files, id ∈ (a.contribution tree settings).ids →
    id ∈ (b.contribution tree settings).ids → a = b

/-- Nobody disagrees with a file about what occurs in its own fragment only. -/
theorem agreeAbout_of_inOneFragment {id : String} (h : InOneFragment tree settings files id) :
    AgreeAbout tree settings files id := by
  intro a ha b hb m hm n hn hmid hnid
  have hida : id ∈ (a.contribution tree settings).ids :=
    List.mem_map.mpr ⟨m, Array.mem_toList_iff.mpr hm, hmid⟩
  have hidb : id ∈ (b.contribution tree settings).ids :=
    List.mem_map.mpr ⟨n, Array.mem_toList_iff.mpr hn, hnid⟩
  obtain rfl := h a ha b hb hida hidb
  exact (a.grown_contribution tree settings).indexed.eq_of_id_eq hm hn (hmid.trans hnid.symm)

end

/-! ## Graphs that differ in order only -/

namespace Graph

/-- Two graphs know the same identifiers and have the same edges, each as often as the other. -/
structure Alike (g k : Graph) : Prop where
  contains_eq : ∀ id, g.contains id = k.contains id
  edges_perm : g.edges.toList.Perm k.edges.toList

namespace Alike

variable {g k : Graph}

/-- A resolver looks at each edge on its own. -/
theorem resolveImports (h : Alike g k) (r : Resolver) :
    Alike (g.resolveImports r) (k.resolveImports r) where
  contains_eq := h.contains_eq
  edges_perm := by
    simp only [Graph.resolveImports, Array.toList_map]
    exact h.edges_perm.map r.redirect

theorem foldl_resolveImports (h : Alike g k) (rs : List Resolver) :
    Alike (rs.foldl Graph.resolveImports g) (rs.foldl Graph.resolveImports k) := by
  induction rs generalizing g k with
  | nil => exact h
  | cons r rest ih => exact ih (h.resolveImports r)

/-- Settling keeps the same triples of both. -/
theorem mem_triples_settle_iff (h : Alike g k) (triple : String × String × EdgeKind) :
    triple ∈ g.settle.edges.toList.map Edge.triple ↔
      triple ∈ k.settle.edges.toList.map Edge.triple := by
  have hends : ∀ edge, g.holdsEnds edge = k.holdsEnds edge := by
    intro edge
    rw [holdsEnds, holdsEnds, h.contains_eq, h.contains_eq]
  rw [mem_triples_settle, mem_triples_settle]
  simp only [h.edges_perm.mem_iff, hends]

end Alike

end Graph

/-! ## Files in another order -/

/-- Two graphs that are made of the same files in different orders: the same identifiers and the
same edges, the same nodes but where files disagree, and in the end the same triples. -/
structure SameButOrder (tree : FileTree) (settings : ExtractionSettings) (files : List SourceFile)
    (g k : Graph) : Prop where
  mem_ids_iff : ∀ id, id ∈ g.ids ↔ id ∈ k.ids
  edges_perm : g.edges.toList.Perm k.edges.toList
  /-- Every class known by name only has the same node. -/
  node?_classRefId : ∀ name, g.node? (classRefId name) = k.node? (classRefId name)
  /-- What occurs in the fragment of one file only has the same node. -/
  node?_inOneFragment : ∀ id, InOneFragment tree settings files id → g.node? id = k.node? id
  /-- Whatever resolvers redirect the imports of both, the same triples are left in the end. -/
  mem_triples_iff : ∀ (rs : List Resolver) (triple : String × String × EdgeKind),
    triple ∈ (rs.foldl Graph.resolveImports g).settle.edges.toList.map Edge.triple ↔
      triple ∈ (rs.foldl Graph.resolveImports k).settle.edges.toList.map Edge.triple

/-- The files in another order make the same graph but for order. -/
theorem combined_alike {files others : List SourceFile} (h : files.Perm others) (tree : FileTree)
    (settings : ExtractionSettings) :
    Graph.Alike (combined tree settings files) (combined tree settings others) where
  contains_eq id := by
    rw [Bool.eq_iff_iff, contains_combined, contains_combined]
    simp only [h.mem_iff]
  edges_perm := by
    rw [edges_combined, edges_combined]
    exact h.flatMap_right _

/-- **The order of the files does not matter.** Whatever files in whatever order are put together,
the graph has the same identifiers, edges and, in the end, triples, and the same nodes but where
files disagree about a node that is not a class known by name only. -/
theorem buildGraph_perm {files others : List SourceFile} (h : files.Perm others) {host : Host}
    {settings : ExtractionSettings} (hpool : host.pool settings.workers = .ok ())
    (tree : FileTree) :
    ∃ g k, buildGraph host tree settings files (undisturbed files) = .ok g ∧
      buildGraph host tree settings others (undisturbed others) = .ok k ∧
        SameButOrder tree settings files g k := by
  have halike : Graph.Alike (combined tree settings files) (combined tree settings others) :=
    combined_alike h tree settings
  refine ⟨_, _, buildGraph_undisturbed hpool, buildGraph_undisturbed hpool, ?_,
    halike.edges_perm, ?_, ?_, ?_⟩
  · intro id
    rw [← combined_indexed.contains_iff, ← combined_indexed.contains_iff, halike.contains_eq]
  · exact fun name => node?_combined_perm h (agreeAbout_classRefId name)
  · exact fun id hone => node?_combined_perm h (agreeAbout_of_inOneFragment hone)
  · exact fun rs triple => (halike.foldl_resolveImports rs).mem_triples_settle_iff triple

/-- A Python class and a script class with a base of one name. -/
def baseInTwoFamilies : FileTree :=
  .directory [("repo", .directory
    [("a.py", .file (Text.Utf8.encode "class A(Base): pass\n")),
      ("b.js", .file (Text.Utf8.encode "class B extends Base {}\n"))])]

/-- The two files make the same graph in both orders, but for order. -/
theorem buildGraph_perm_baseInTwoFamilies :
    [SourceFile.at ["repo"] ["a.py"], SourceFile.at ["repo"] ["b.js"]].Perm
        [SourceFile.at ["repo"] ["b.js"], SourceFile.at ["repo"] ["a.py"]] ∧
      ∃ g k, buildGraph {} baseInTwoFamilies {}
          [SourceFile.at ["repo"] ["a.py"], SourceFile.at ["repo"] ["b.js"]]
          [.passed, .passed] = .ok g ∧
        buildGraph {} baseInTwoFamilies {}
          [SourceFile.at ["repo"] ["b.js"], SourceFile.at ["repo"] ["a.py"]]
          [.passed, .passed] = .ok k ∧
        SameButOrder baseInTwoFamilies {}
          [SourceFile.at ["repo"] ["a.py"], SourceFile.at ["repo"] ["b.js"]] g k := by
  have hswap : [SourceFile.at ["repo"] ["a.py"], SourceFile.at ["repo"] ["b.js"]].Perm
      [SourceFile.at ["repo"] ["b.js"], SourceFile.at ["repo"] ["a.py"]] := List.Perm.swap _ _ []
  exact ⟨hswap, buildGraph_perm hswap rfl baseInTwoFamilies⟩

end Cartograph
