import Cartograph.Proofs.Graph.Degrees
import Cartograph.Proofs.Graph.Runs
import Cartograph.Proofs.Graph.Settling
import Mathlib.Algebra.BigOperators.Group.List.Basic
import Mathlib.Algebra.GroupWithZero.Nat
import Mathlib.Data.List.Nodup

/-!
# Reports account for everything

A report counts: the edges at every node, and the nodes and edges of every kind. Each of the counts
is taken on its own; here they are added up. Main statement: no node, edge or kind is missing from
the counts or counted twice, and the degrees add up to twice the number of edges exactly when every
edge has both of its ends, as after settling (`report_accounts`).
-/

namespace Cartograph

/-! ## Adding up counts -/

section

variable {α : Type} [DecidableEq α]

/-- One more item adds one to its own count and to no other. -/
theorem sum_map_count_cons (keys found : List α) (item : α) :
    (keys.map (item :: found).count).sum = (keys.map found.count).sum + keys.count item := by
  induction keys with
  | nil => rfl
  | cons key keys ih =>
      rw [List.map_cons, List.sum_cons, ih, List.map_cons, List.sum_cons, List.count_cons,
        List.count_cons, beq_eq_beq.mpr (eq_comm (a := item) (b := key))]
      omega

/-- **The counts of distinct keys** add up to the number of items that are among the keys. -/
theorem sum_map_count {keys : List α} (h : keys.Nodup) (found : List α) :
    (keys.map found.count).sum = found.countP (· ∈ keys) := by
  induction found with
  | nil => simp
  | cons item found ih =>
      rw [sum_map_count_cons, ih, List.countP_cons, h.count]
      simp only [decide_eq_true_eq]

end

/-! ## Tables of kinds -/

/-- The table has one entry for every kind that was found, with the number of times, and no entry
for any other. -/
structure Counts {κ : Type} [DecidableEq κ] (table : List (κ × Nat)) (found : List κ) : Prop where
  mem_iff : ∀ kind n, (kind, n) ∈ table ↔ kind ∈ found ∧ n = found.count kind
  nodup_kinds : (table.map Prod.fst).Nodup
  sum_eq : (table.map Prod.snd).sum = found.length

section

variable {κ : Type} [DecidableEq κ] {kinds found : List κ}

theorem mem_tally {kind : κ} {n : Nat} :
    (kind, n) ∈ tally kinds found ↔ (kind ∈ kinds ∧ kind ∈ found) ∧ n = found.count kind := by
  simp only [tally, List.mem_filter, List.mem_map, Prod.mk.injEq, bne_iff_ne]
  constructor
  · rintro ⟨⟨kind, hkind, rfl, rfl⟩, hcount⟩
    exact ⟨⟨hkind, List.count_pos_iff.mp (Nat.pos_of_ne_zero hcount)⟩, rfl⟩
  · rintro ⟨⟨hkind, hfound⟩, rfl⟩
    exact ⟨⟨kind, hkind, rfl, rfl⟩, Nat.ne_of_gt (List.count_pos_iff.mpr hfound)⟩

/-- Entries that are left out add nothing. -/
theorem sum_snd_tally : ((tally kinds found).map Prod.snd).sum = (kinds.map found.count).sum := by
  unfold tally
  induction kinds with
  | nil => rfl
  | cons kind kinds ih =>
      rw [List.map_cons, List.map_cons, List.sum_cons]
      -- an entry is left out exactly when its count is zero
      by_cases hcount : found.count kind = 0
      · rw [List.filter_cons_of_neg (by simpa using hcount), ih, hcount, Nat.zero_add]
      · rw [List.filter_cons_of_pos (by simpa using hcount), List.map_cons, List.sum_cons, ih]

/-- **A tally counts** what was found, if there is a place for every kind. -/
theorem counts_tally (hnodup : kinds.Nodup) (hall : ∀ kind ∈ found, kind ∈ kinds) :
    Counts (tally kinds found) found where
  mem_iff kind n := by
    rw [mem_tally, and_iff_right_of_imp (hall kind)]
  nodup_kinds := by
    have hsublist : ((tally kinds found).map Prod.fst).Sublist kinds := by
      have hfilter := (List.filter_sublist (p := fun entry : κ × Nat => entry.2 != 0)
        (l := kinds.map fun kind => (kind, found.count kind))).map Prod.fst
      rwa [List.map_map, Function.comp_def, List.map_id'] at hfilter
    exact hsublist.nodup hnodup
  sum_eq := by
    rw [sum_snd_tally, sum_map_count hnodup, List.countP_eq_length]
    intro kind hkind
    exact decide_eq_true (hall kind hkind)

end

/-! ## Reports -/

/-- The report has the nodes and edges of the graph in their order, every node with the number of
edges that leave it and of edges that lead to it, and every kind that occurs with the number of
times. -/
structure Report.Accounts (report : Report) (g : Graph) : Prop where
  nodes_eq : report.nodes.map RatedNode.node = g.nodes.toList
  edges_eq : report.edges = g.edges.toList
  degree_eq : ∀ rated ∈ report.nodes, rated.degree
    = report.edges.countP (·.source = rated.node.id)
      + report.edges.countP (·.target = rated.node.id)
  nodeCounts : Counts report.nodeCounts (report.nodes.map (·.node.kind))
  edgeCounts : Counts report.edgeCounts (report.edges.map Edge.kind)
  totals : report.totals = { nodes := report.nodes.length, edges := report.edges.length }

namespace Graph

variable {g : Graph}

/-- The nodes of a report are the nodes of the graph. -/
theorem node_nodes_report (g : Graph) : g.report.nodes.map RatedNode.node = g.nodes.toList := by
  rw [report, List.map_map, Function.comp_def, List.map_id']

theorem accounts_report (g : Graph) : g.report.Accounts g where
  nodes_eq := node_nodes_report g
  edges_eq := rfl
  degree_eq rated hrated := by
    have hcount : ∀ ends : Edge → String, (g.edges.toList.map ends).count rated.node.id
        = g.edges.toList.countP fun edge => ends edge = rated.node.id := by
      intro ends
      rw [List.count_eq_countP, List.countP_map]
      rfl
    rw [degree_of_mem_report hrated, getD_degrees, hcount, hcount]
    rfl
  nodeCounts := by
    have hkinds : g.report.nodes.map (·.node.kind) = g.nodes.toList.map Node.kind := by
      rw [← node_nodes_report, List.map_map, Function.comp_def]
    rw [hkinds]
    exact counts_tally (by decide) fun kind _ => NodeKind.mem_all kind
  edgeCounts := counts_tally (by decide) fun kind _ => EdgeKind.mem_all kind
  totals := by
    simp [report]

/-- **The degrees add up** to the number of ends of edges that are at nodes. -/
theorem sum_degrees (h : g.Indexed) : (g.report.nodes.map RatedNode.degree).sum
    = g.edges.toList.countP (·.source ∈ g.ids) + g.edges.toList.countP (·.target ∈ g.ids) := by
  have hdegrees : g.report.nodes.map RatedNode.degree = g.ids.map fun id =>
      (g.edges.toList.map Edge.source).count id + (g.edges.toList.map Edge.target).count id := by
    rw [report, ids, List.map_map, List.map_map]
    exact List.map_congr_left fun node _ => getD_degrees g node.id
  rw [hdegrees, List.sum_map_add, sum_map_count h.nodup_ids, sum_map_count h.nodup_ids,
    List.countP_map, List.countP_map]
  rfl

/-- An end that is at no node is missing from the degrees. -/
theorem sum_degrees_eq_iff (h : g.Indexed) :
    (g.report.nodes.map RatedNode.degree).sum = 2 * g.report.totals.edges ↔
      ∀ edge ∈ g.edges.toList, edge.source ∈ g.ids ∧ edge.target ∈ g.ids := by
  have hedges : g.report.totals.edges = g.edges.toList.length := Array.length_toList.symm
  have hsources := List.countP_le_length (l := g.edges.toList)
    (p := fun edge => decide (edge.source ∈ g.ids))
  have htargets := List.countP_le_length (l := g.edges.toList)
    (p := fun edge => decide (edge.target ∈ g.ids))
  rw [sum_degrees h, hedges]
  constructor
  · intro hsum edge hedge
    -- neither of the two numbers can be more than half of the sum
    have hallSources : g.edges.toList.countP (fun edge => decide (edge.source ∈ g.ids))
        = g.edges.toList.length := by omega
    have hallTargets : g.edges.toList.countP (fun edge => decide (edge.target ∈ g.ids))
        = g.edges.toList.length := by omega
    exact ⟨of_decide_eq_true (List.countP_eq_length.mp hallSources edge hedge),
      of_decide_eq_true (List.countP_eq_length.mp hallTargets edge hedge)⟩
  · intro hends
    rw [List.countP_eq_length.mpr fun edge hedge => decide_eq_true (hends edge hedge).1,
      List.countP_eq_length.mpr fun edge hedge => decide_eq_true (hends edge hedge).2, Nat.two_mul]

/-- After settling every edge has both of its ends. -/
theorem ends_mem_of_settled (h : g.Indexed) {edge : Edge} (hedge : edge ∈ g.settle.edges.toList) :
    edge.source ∈ g.settle.ids ∧ edge.target ∈ g.settle.ids := by
  have hends : g.holdsEnds edge = true := (mem_edges_settle.mp hedge).1
  rw [holdsEnds, Bool.and_eq_true, h.contains_iff, h.contains_iff] at hends
  exact hends

/-- **A report accounts for every node and every edge**, whatever operations the graph comes from:
it shows them in their order, the degree of a node is the number of edges that leave it and of edges
that lead to it, and the kinds that occur are counted, each once. The degrees add up to twice the
number of edges exactly when both ends of every edge are nodes, and always if the last operation has
settled the edges. -/
theorem report_accounts (operations : List Operation) :
    (run operations).report.Accounts (run operations) ∧
      (((run operations).report.nodes.map RatedNode.degree).sum
          = 2 * (run operations).report.totals.edges ↔
        ∀ edge ∈ (run operations).edges.toList,
          edge.source ∈ (run operations).ids ∧ edge.target ∈ (run operations).ids) ∧
      ((run (operations ++ [.settle])).report.nodes.map RatedNode.degree).sum
        = 2 * (run (operations ++ [.settle])).report.totals.edges := by
  have hindexed : (run operations).Indexed := Indexed.run operations
  have hsettled : run (operations ++ [.settle]) = (run operations).settle :=
    run_append operations [.settle]
  refine ⟨accounts_report _, sum_degrees_eq_iff hindexed, ?_⟩
  rw [sum_degrees_eq_iff (Indexed.run _), hsettled]
  exact fun edge hedge => ends_mem_of_settled hindexed hedge

end Graph

end Cartograph
