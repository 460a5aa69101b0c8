import Cartograph.Proofs.Fragment.Definitions
import Cartograph.Proofs.Imports.Tables
import Mathlib.Data.List.Nodup

/-!
# Nodes of a sort

The nodes of one sort in the fragment of a file are the first of those that the file puts in.
`Graph.OnePerName` says that they are one for each of some names.
-/

namespace Cartograph

namespace Graph

/-- The nodes of a sort. -/
def nodesOf (g : Graph) (sort : String) : List Node :=
  g.nodes.toList.filter (Node.isOf sort)

/-- The nodes of a sort are one for each of these names, and no others. -/
structure OnePerName (g : Graph) (sort : String) (Named : String → Prop) : Prop where
  nodup : ((g.nodesOf sort).map Node.label).Nodup
  mem_iff : ∀ name, name ∈ (g.nodesOf sort).map Node.label ↔ Named name

/-- Nodes of which the first count are one for each name if names and identifiers tell one
another. -/
theorem onePerName_of_firsts {g : Graph} {sort : String} {declared : List Node}
    (hnodes : g.nodesOf sort = firsts declared) {identify : String → String}
    (hinj : ∀ {m n}, identify m = identify n → m = n)
    (hid : ∀ node ∈ declared, node.id = identify node.label) {Named : String → Prop}
    (hnamed : ∀ name, (∃ node ∈ declared, node.label = name) ↔ Named name) :
    g.OnePerName sort Named where
  nodup := by
    have hlabels : (firsts declared).map Node.id
        = ((firsts declared).map Node.label).map identify := by
      rw [List.map_map]
      exact List.map_congr_left fun node hnode => hid node (mem_of_mem_firsts hnode)
    rw [hnodes]
    exact List.Nodup.of_map identify (hlabels ▸ nodup_firsts declared)
  mem_iff name := by
    rw [hnodes, List.mem_map, ← hnamed]
    constructor
    · rintro ⟨node, hnode, hlabel⟩
      exact ⟨node, mem_of_mem_firsts hnode, hlabel⟩
    · rintro ⟨node, hnode, rfl⟩
      obtain ⟨first, hfirst, heq⟩ := exists_mem_firsts hnode
      refine ⟨first, hfirst, hinj ?_⟩
      rw [← hid first (mem_of_mem_firsts hfirst), ← hid node hnode, heq]

/-- What is known by the identifier of a name has this name. -/
theorem mem_labels_of_contains {g : Graph} (hindexed : g.Indexed) {sort : String}
    {identify : String → String} (hinj : ∀ {m n}, identify m = identify n → m = n)
    (hid : ∀ node ∈ g.nodesOf sort, node.id = identify node.label) {name : String}
    (hsort : sortOf (identify name) = sort.toList) (h : g.contains (identify name) = true) :
    name ∈ (g.nodesOf sort).map Node.label := by
  obtain ⟨node, hnode, heq⟩ := List.mem_map.mp (hindexed.contains_iff.mp h)
  have hof : node ∈ g.nodesOf sort := by
    refine List.mem_filter.mpr ⟨hnode, ?_⟩
    rw [Node.isOf, heq]
    exact decide_eq_true hsort
  refine List.mem_map.mpr ⟨node, hof, hinj ?_⟩
  rw [← hid node hof, heq]

end Graph

/-- **The nodes of a sort** other than that of files are the first of those that are put in. -/
theorem SourceFile.nodesOf_put (file : SourceFile) {sort : String} (hsort : "file" ≠ sort)
    (contents : Contents) : (file.bareFragment.put contents).nodesOf sort
      = firsts (contents.nodes.filter (Node.isOf sort)) := by
  have hfile : file.node.isOf sort = false := by
    rw [Node.isOf_of_sortOf (sortOf_fileId file.path) sort, decide_eq_false_iff_not]
    exact hsort
  have hnodes : (file.bareFragment.put contents).nodes.toList
      = firsts (file.node :: contents.nodes) :=
    Graph.nodes_foldl_addNode_empty (file.node :: contents.nodes)
  have hfilter := filter_firsts (fun id => sortOf id = sort.toList) (file.node :: contents.nodes)
  rw [Graph.nodesOf, hnodes]
  refine hfilter.trans (congrArg firsts ?_)
  exact List.filter_cons_of_neg (by rw [← Node.isOf, hfile]; exact Bool.false_ne_true)

/-- **A first node among those of some items** is the node of the first item that has one with this
identifier. -/
theorem mem_firsts_filterMap_iff {α : Type} {node? : α → Option Node} {items : List α}
    {node : Node} : node ∈ firsts (items.filterMap node?) ↔ ∃ item,
      FirstWith (fun i => ∃ n, node? i = some n ∧ n.id = node.id) items item ∧
        node? item = some node := by
  rw [mem_firsts_iff, find?_eq_some_iff_firstWith fun _ => decide_eq_true_iff,
    firstWith_filterMap_iff]

/-! ## Edges from the file -/

/-- The edge from a file to what it owns. -/
def ownedEdge (file : SourceFile) (kind : EdgeKind) (node : Node) : Edge where
  source := file.id
  target := node.id
  kind := kind

/-- It does not matter to the edge what else is known of the node. -/
theorem ownedEdge_congr {file : SourceFile} {kind : EdgeKind} {node other : Node}
    (h : node.id = other.id) : ownedEdge file kind node = ownedEdge file kind other := by
  rw [ownedEdge, ownedEdge, h]

/-- A list without repetitions whose only member is one item has it once and nothing else. -/
theorem eq_singleton_of_nodup {α : Type} {items : List α} {item : α} (hnodup : items.Nodup)
    (h : ∀ other, other ∈ items ↔ other = item) : items = [item] := by
  rw [← List.perm_singleton, List.perm_ext_iff_of_nodup hnodup (List.nodup_singleton item)]
  simpa only [List.mem_singleton] using h

end Cartograph
