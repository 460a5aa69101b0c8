import Cartograph.Proofs.Imports.Redirection
import Mathlib

/-!
# Passes of resolvers

A resolver goes through all edges of a graph, whatever graph that is, and sends on the imports that
it owns and can place. Where it sends one is a file and so no placeholder. Hence no later pass sends
the same edge anywhere else, be it a pass of the same resolver or of another one. Main statements: a
pass changes nothing but targets of owned imports, and a second pass changes nothing at all
(`Graph.FramedBy`); two resolvers that own no file in common may go in either order
(`Graph.PassInEitherOrder`).
-/

namespace Cartograph

/-- A placeholder begins like one. -/
theorem startsWith_of_placeholderTarget? {id module : String}
    (h : placeholderTarget? id = some module) : Text.startsWith id "module:" = true := by
  obtain ⟨rest, hrest, -⟩ := Option.map_eq_some_iff.mp h
  exact Option.isSome_iff_exists.mpr ⟨rest, hrest⟩

namespace Resolver

/-! ## Resolvers for any files -/

/-- The resolver was built from these files, one for Python files or one for script files, whatever
files they are. -/
inductive BuiltFrom (files : List SourceFile) : Resolver → Prop
  | dotted : BuiltFrom files (Dotted.resolver files)
  | relative : BuiltFrom files (Relative.resolver files)

namespace BuiltFrom

variable {files : List SourceFile} {r : Resolver}

/-- A resolver owns the files that it was built from. -/
theorem contains_iff (h : BuiltFrom files r) {id : String} :
    r.owns id = true ↔ ∃ file ∈ files, file.id = id := by
  cases h with
  | dotted => exact contains_ofList_ids
  | relative => exact contains_ofList_ids

/-- A resolver leads to files that it was built from. -/
theorem exists_file (h : BuiltFrom files r) {source target id : String}
    (hid : r.resolve source target = some id) : ∃ file ∈ files, file.id = id := by
  cases h with
  | dotted =>
      rw [Dotted.resolve_resolver] at hid
      exact Dotted.exists_of_resolve hid
  | relative =>
      rw [Relative.resolve_resolver] at hid
      exact Relative.exists_of_resolveIn hid

/-- If there is an answer, it is the only file that the resolver was built from. -/
theorem resolve_singleton_iff {file : SourceFile} (h : BuiltFrom [file] r)
    {source target : String} :
    r.resolve source target = some file.id ↔ (r.resolve source target).isSome = true := by
  rw [Option.isSome_iff_exists]
  refine ⟨fun hid => ⟨_, hid⟩, fun ⟨id, hid⟩ => ?_⟩
  obtain ⟨other, hother, rfl⟩ := h.exists_file hid
  rwa [List.mem_singleton.mp hother] at hid

theorem resolve_singleton_eq_none_iff {file : SourceFile} (h : BuiltFrom [file] r)
    {source target : String} :
    r.resolve source target = none ↔ r.resolve source target ≠ some file.id := by
  rw [Ne, h.resolve_singleton_iff, Option.not_isSome_iff_eq_none]

end BuiltFrom

/-! ## One edge -/

section

variable {files : List SourceFile} {r : Resolver} {edge : Edge} {target : String}

theorem redirect_of_target?_eq_none (h : r.target? edge = none) : r.redirect edge = edge := by
  rw [redirect, h]

theorem redirect_of_target?_eq_some (h : r.target? edge = some target) :
    r.redirect edge = { edge with target } := by
  rw [redirect, h]

/-- **What is sent on**: an import that leads to a placeholder and begins at an owned file. -/
theorem target?_eq_some_iff : r.target? edge = some target ↔
    edge.kind = .imports ∧ r.owns edge.source = true ∧
      ∃ module, placeholderTarget? edge.target = some module ∧
        r.resolve edge.source module = some target := by
  constructor
  · intro h
    unfold target? Edge.unresolved? at h
    split at h
    · rename_i module hmodule
      split at hmodule
      · rename_i hkind
        split at h
        · rename_i howns
          exact ⟨hkind, howns, module, hmodule, h⟩
        · cases h
      · cases hmodule
    · cases h
  · rintro ⟨hkind, howns, module, hmodule, hresolve⟩
    have hunresolved : edge.unresolved? = some module := by
      rw [Edge.unresolved?, if_pos hkind, hmodule]
    rw [target?, hunresolved]
    exact (if_pos howns).trans hresolve

/-- An edge is sent to a file, and a file is no placeholder. -/
theorem placeholderTarget?_of_target? (hr : BuiltFrom files r) (h : r.target? edge = some target) :
    placeholderTarget? target = none := by
  obtain ⟨-, -, module, -, hresolve⟩ := target?_eq_some_iff.mp h
  obtain ⟨file, -, rfl⟩ := hr.exists_file hresolve
  exact placeholderTarget?_eq_none (ne_placeholderId (by simp [SourceFile.id]))

/-- An edge that has been sent on is passed over by every resolver from then on. -/
theorem target?_redirect_of_eq_some (hr : BuiltFrom files r) (h : r.target? edge = some target)
    (q : Resolver) : q.target? (r.redirect edge) = none := by
  have hnone : ({ edge with target } : Edge).unresolved? = none := by
    rw [Edge.unresolved?, placeholderTarget?_of_target? hr h, ite_self]
  rw [redirect_of_target?_eq_some h, target?, hnone]

/-- No resolver finds anything left to do behind itself. -/
theorem target?_redirect_self (hr : BuiltFrom files r) (edge : Edge) :
    r.target? (r.redirect edge) = none := by
  cases h : r.target? edge with
  | none => rw [redirect_of_target?_eq_none h, h]
  | some target => exact target?_redirect_of_eq_some hr h r

/-- The target of an edge changes exactly when the edge is sent on. -/
theorem target_redirect_ne_iff (hr : BuiltFrom files r) :
    (r.redirect edge).target ≠ edge.target ↔ (r.target? edge).isSome = true := by
  cases h : r.target? edge with
  | none => simp [redirect_of_target?_eq_none h]
  | some target =>
      obtain ⟨-, -, module, hmodule, -⟩ := target?_eq_some_iff.mp h
      rw [redirect_of_target?_eq_some h, Option.isSome_some, iff_true_right rfl]
      rintro rfl
      rw [placeholderTarget?_of_target? hr h] at hmodule
      cases hmodule

end

/-! ## Two resolvers -/

/-- No identifier is owned by both. -/
def OwnApart (p q : Resolver) : Prop :=
  ∀ id, p.owns id = true → q.owns id = true → False

section

variable {files others : List SourceFile} {p q : Resolver}

theorem OwnApart.symm (h : OwnApart p q) : OwnApart q p :=
  fun id hq hp => h id hp hq

/-- Resolvers own nothing in common if no file of one has the path of a file of the other. -/
theorem ownApart_of_paths (hp : BuiltFrom files p) (hq : BuiltFrom others q)
    (h : ∀ a ∈ files, ∀ b ∈ others, a.path ≠ b.path) : OwnApart p q := by
  intro id hpid hqid
  obtain ⟨a, ha, rfl⟩ := hp.contains_iff.mp hpid
  obtain ⟨b, hb, hid⟩ := hq.contains_iff.mp hqid
  exact h a ha b hb (fileId_injective hid.symm)

/-- What one resolver sends on is not for the other. -/
theorem OwnApart.target?_eq_none (h : OwnApart p q) {edge : Edge} {target : String}
    (ht : p.target? edge = some target) : q.target? edge = none := by
  rw [Option.eq_none_iff_forall_ne_some]
  intro other hother
  exact h edge.source (target?_eq_some_iff.mp ht).2.1 (target?_eq_some_iff.mp hother).2.1

/-- A resolver does not change what is left to do for the other. -/
theorem OwnApart.target?_redirect (h : OwnApart p q) (hp : BuiltFrom files p) (edge : Edge) :
    q.target? (p.redirect edge) = q.target? edge := by
  cases ht : p.target? edge with
  | none => rw [redirect_of_target?_eq_none ht]
  | some target => rw [target?_redirect_of_eq_some hp ht, h.target?_eq_none ht]

/-- **Two resolvers commute** on every edge if they own nothing in common. -/
theorem OwnApart.redirect_comm (h : OwnApart p q) (hp : BuiltFrom files p)
    (hq : BuiltFrom others q) (edge : Edge) :
    q.redirect (p.redirect edge) = p.redirect (q.redirect edge) := by
  cases ht : p.target? edge with
  | none =>
      have hafter : p.target? (q.redirect edge) = none := by
        rw [h.symm.target?_redirect hq, ht]
      rw [redirect_of_target?_eq_none ht, redirect_of_target?_eq_none hafter]
  | some target =>
      have hbefore : q.target? edge = none := h.target?_eq_none ht
      have hafter : q.target? (p.redirect edge) = none := target?_redirect_of_eq_some hp ht q
      rw [redirect_of_target?_eq_none hbefore, redirect_of_target?_eq_none hafter]

end

end Resolver

/-! ## Whole passes -/

namespace Graph

/-- A pass of the resolver changes nothing in the graph but targets of imports that it owns, counts
those that it changes, and leaves nothing to do for another pass. -/
structure FramedBy (g : Graph) (r : Resolver) : Prop where
  nodes_eq : (g.resolveImports r).nodes = g.nodes
  index_eq : (g.resolveImports r).index = g.index
  size_eq : (g.resolveImports r).edges.size = g.edges.size
  /-- Each edge stays in its place and keeps all but its target. -/
  keeps : ∀ (i : Nat) (before after : Edge), g.edges[i]? = some before →
    (g.resolveImports r).edges[i]? = some after →
      after.source = before.source ∧ after.kind = before.kind ∧ after.metadata = before.metadata
  /-- Only targets of owned imports that lead to placeholders change. -/
  changes_only : ∀ (i : Nat) (before after : Edge), g.edges[i]? = some before →
    (g.resolveImports r).edges[i]? = some after → after.target ≠ before.target →
      before.kind = .imports ∧ Text.startsWith before.target "module:" = true ∧
        r.owns before.source = true
  /-- An owned import leads where the resolver places it. -/
  sends : ∀ (i : Nat) (before after : Edge), g.edges[i]? = some before →
    (g.resolveImports r).edges[i]? = some after → before.kind = .imports →
      r.owns before.source = true → ∀ module target, before.target = placeholderId module →
        r.resolve before.source module = some target → after.target = target
  /-- The number of redirected imports is the number of changed targets. -/
  count_eq : g.resolvableCount r
    = (g.edges.toList.zip (g.resolveImports r).edges.toList).countP
        fun pair => pair.2.target ≠ pair.1.target
  again_count : (g.resolveImports r).resolvableCount r = 0
  again_eq : (g.resolveImports r).resolveImports r = g.resolveImports r

/-- The two resolvers may go in either order: the graph in the end is the same, and so is what each
of them counts. -/
structure PassInEitherOrder (g : Graph) (p q : Resolver) : Prop where
  graph_eq : (g.resolveImports p).resolveImports q = (g.resolveImports q).resolveImports p
  first_count_eq : (g.resolveImports q).resolvableCount p = g.resolvableCount p
  second_count_eq : (g.resolveImports p).resolvableCount q = g.resolvableCount q

section

variable {files others : List SourceFile} {p q r : Resolver}

/-- The edges behind two passes are redirected twice. -/
theorem resolveImports_resolveImports (g : Graph) (p q : Resolver) :
    (g.resolveImports p).resolveImports q
      = { g with edges := g.edges.map fun edge => q.redirect (p.redirect edge) } := by
  simp only [resolveImports, Array.map_map]
  rfl

/-- What is counted behind a pass. -/
theorem resolvableCount_resolveImports (g : Graph) (p q : Resolver) :
    (g.resolveImports p).resolvableCount q
      = g.edges.countP fun edge => (q.target? (p.redirect edge)).isSome := by
  rw [resolvableCount, resolveImports, Array.countP_map]
  rfl

/-- A pass counts the edges whose target it changes. -/
theorem resolvableCount_eq (hr : r.BuiltFrom files) (g : Graph) : g.resolvableCount r
    = (g.edges.toList.zip (g.resolveImports r).edges.toList).countP
        fun pair => pair.2.target ≠ pair.1.target := by
  have hzip : g.edges.toList.zip (g.resolveImports r).edges.toList
      = g.edges.toList.map fun edge => (edge, r.redirect edge) := by
    rw [resolveImports, Array.toList_map]
    nth_rewrite 1 [← List.map_id g.edges.toList]
    exact List.zip_map'
  rw [hzip, List.countP_map, resolvableCount, ← Array.countP_toList]
  refine List.countP_congr fun edge _ => ?_
  rw [Function.comp_apply, decide_eq_true_iff, Resolver.target_redirect_ne_iff hr]

/-- **A pass is framed**, and a second one does nothing. -/
theorem framedBy (hr : r.BuiltFrom files) (g : Graph) : g.FramedBy r := by
  have hplace : ∀ (i : Nat) (before after : Edge), g.edges[i]? = some before →
      (g.resolveImports r).edges[i]? = some after → after = r.redirect before := by
    intro i before after hbefore hafter
    rw [resolveImports, Array.getElem?_map, hbefore] at hafter
    exact (Option.some.inj hafter).symm
  refine ⟨rfl, rfl, Array.size_map, ?_, ?_, ?_, resolvableCount_eq hr g, ?_, ?_⟩
  · intro i before after hbefore hafter
    obtain rfl := hplace i before after hbefore hafter
    cases h : r.target? before with
    | none => simp [Resolver.redirect_of_target?_eq_none h]
    | some target => simp [Resolver.redirect_of_target?_eq_some h]
  · intro i before after hbefore hafter hne
    obtain rfl := hplace i before after hbefore hafter
    obtain ⟨target, htarget⟩ :=
      Option.isSome_iff_exists.mp ((Resolver.target_redirect_ne_iff hr).mp hne)
    obtain ⟨hkind, howns, module, hmodule, -⟩ := Resolver.target?_eq_some_iff.mp htarget
    exact ⟨hkind, startsWith_of_placeholderTarget? hmodule, howns⟩
  · intro i before after hbefore hafter hkind howns module target hmodule hresolve
    obtain rfl := hplace i before after hbefore hafter
    have htarget : r.target? before = some target :=
      Resolver.target?_eq_some_iff.mpr ⟨hkind, howns, module,
        hmodule ▸ placeholderTarget?_placeholderId module, hresolve⟩
    rw [Resolver.redirect_of_target?_eq_some htarget]
  · rw [resolvableCount_resolveImports, Array.countP_eq_zero]
    intro edge _
    rw [Resolver.target?_redirect_self hr]
    exact Bool.false_ne_true
  · rw [resolveImports_resolveImports, resolveImports]
    congr 2
    funext edge
    exact Resolver.redirect_of_target?_eq_none (Resolver.target?_redirect_self hr edge)

/-- **Two passes commute** if the resolvers own nothing in common. -/
theorem passInEitherOrder (hp : p.BuiltFrom files) (hq : q.BuiltFrom others)
    (h : p.OwnApart q) (g : Graph) : g.PassInEitherOrder p q := by
  refine ⟨?_, ?_, ?_⟩
  · rw [resolveImports_resolveImports, resolveImports_resolveImports]
    congr 2
    funext edge
    exact h.redirect_comm hp hq edge
  · rw [resolvableCount_resolveImports, resolvableCount]
    simp only [h.symm.target?_redirect hq]
  · rw [resolvableCount_resolveImports, resolvableCount]
    simp only [h.target?_redirect hp]

/-- **Passes are framed, happen once and commute.** Whatever graph they go through and whatever
files they were built from, the resolver for Python files and that for script files change targets
of imports that they own and nothing else, say how many they change, and find nothing to change when
they come again. If no path is that of a file of both, they may come in either order. -/
theorem passes_framed (g : Graph) (files others : List SourceFile) :
    g.FramedBy (Dotted.resolver files) ∧ g.FramedBy (Relative.resolver others) ∧
      ((∀ a ∈ files, ∀ b ∈ others, a.path ≠ b.path) →
        g.PassInEitherOrder (Dotted.resolver files) (Relative.resolver others)) := by
  refine ⟨framedBy .dotted g, framedBy .relative g, fun hpaths => ?_⟩
  have hapart : (Dotted.resolver files).OwnApart (Relative.resolver others) :=
    Resolver.ownApart_of_paths .dotted .relative hpaths
  exact passInEitherOrder .dotted .relative hapart g

end

/-- An import of one name by a Python file and by a script file. -/
def importsOfOneName : Graph :=
  (empty.addEdgeDeferred { source := "file:a.py", target := "module:b", kind := .imports }
    ).addEdgeDeferred { source := "file:c.js", target := "module:./b", kind := .imports }

/-- Both imports are placed whichever resolver comes first. -/
theorem passes_framed_importsOfOneName :
    (∀ a ∈ [SourceFile.at ["repo"] ["a.py"], SourceFile.at ["repo"] ["b.py"]],
      ∀ b ∈ [SourceFile.at ["repo"] ["b.js"], SourceFile.at ["repo"] ["c.js"]],
        a.path ≠ b.path) ∧
      importsOfOneName.PassInEitherOrder
        (Dotted.resolver [SourceFile.at ["repo"] ["a.py"], SourceFile.at ["repo"] ["b.py"]])
        (Relative.resolver [SourceFile.at ["repo"] ["b.js"], SourceFile.at ["repo"] ["c.js"]]) := by
  have hpaths : (SourceFile.at ["repo"] ["a.py"]).path = "a.py" ∧
      (SourceFile.at ["repo"] ["b.py"]).path = "b.py" ∧
      (SourceFile.at ["repo"] ["b.js"]).path = "b.js" ∧
      (SourceFile.at ["repo"] ["c.js"]).path = "c.js" := ⟨by cbv, by cbv, by cbv, by cbv⟩
  have hapart : ∀ a ∈ [SourceFile.at ["repo"] ["a.py"], SourceFile.at ["repo"] ["b.py"]],
      ∀ b ∈ [SourceFile.at ["repo"] ["b.js"], SourceFile.at ["repo"] ["c.js"]],
        a.path ≠ b.path := by
    simp [hpaths]
  exact ⟨hapart, (passes_framed importsOfOneName _ _).2.2 hapart⟩

end Graph

end Cartograph
