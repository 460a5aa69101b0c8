import Cartograph.Proofs.Conservation
import Cartograph.Proofs.Definitions
import Cartograph.Proofs.FileNodes
import Cartograph.Proofs.Python.Places
import Cartograph.Proofs.Traces

/-!
# Marks of Python files

A call may tell that its file reads from a database, writes to one or sends requests, and it notes
by which names it tells so. Wherever in the file such a call stands, the file is marked in the
report by an edge to itself, one for each kind, and of all calls that tell the same the first in the
text is the one whose names are kept. Files that are shown under one path share their marks. Main
statements: `marked_by_calls`, and `marked_by_other_file` for names that are no texts.
-/

namespace Cartograph

namespace Python

/-! ## What a call tells -/

namespace Tree

/-- The tree is a call, and this is what is called. -/
def Calls (t callee : Tree) : Prop :=
  t.form = .call ∧ t.parts.head? = some callee

theorem Calls.unique {t callee other : Tree} (h : t.Calls callee) (hother : t.Calls other) :
    callee = other :=
  Option.some.inj (h.2.symm.trans hother.2)

/-- What a call tells of its file: the kind of mark, and the facts that it notes. -/
inductive Triggers (t : Tree) : EdgeKind → Metadata → Prop
  /-- A method that reads from a database. -/
  | read {callee : Tree} {method : String} (calls : t.Calls callee)
      (form : callee.form = .attribute method) (reads : method ∈ Signals.databaseReads) :
      Triggers t .dbRead [("method", .str method), ("object", .str (objectName callee))]
  /-- A method that writes to a database, unless it counts as one that reads. -/
  | write {callee : Tree} {method : String} (calls : t.Calls callee)
      (form : callee.form = .attribute method) (writes : method ∈ Signals.databaseWrites)
      (reads : method ∉ Signals.databaseReads) :
      Triggers t .dbWrite [("method", .str method), ("object", .str (objectName callee))]
  /-- A function of a request library that is called by the name of the library. -/
  | request {callee object : Tree} {library method : String} (calls : t.Calls callee)
      (form : callee.form = .attribute method) (object_part : callee.parts.head? = some object)
      (object_form : object.form = .name library) (library_known : library ∈ Signals.requestModules)
      (method_known : method ∈ Signals.requestFunctions) :
      Triggers t .apiCall [("method", .str method), ("module", .str library)]
  /-- A function that sends a request and is called by its bare name. -/
  | fetch {callee : Tree} {function : String} (calls : t.Calls callee)
      (form : callee.form = .name function) (fetches : function ∈ Signals.fetchFunctions) :
      Triggers t .apiCall [("function", .str function)]

end Tree

/-- The mark of a kind on a file, with the facts that a call notes. -/
def markOf (file : SourceFile) (kind : EdgeKind) (facts : Metadata) : Edge where
  source := file.id
  target := file.id
  kind := kind
  metadata := facts

section

variable {file : SourceFile} {kind : EdgeKind} {edge : Edge}

theorem databaseUse?_eq_some_iff {method : String} : databaseUse? method = some kind ↔
    kind = .dbRead ∧ method ∈ Signals.databaseReads ∨
      kind = .dbWrite ∧ method ∈ Signals.databaseWrites ∧ method ∉ Signals.databaseReads := by
  simp only [databaseUse?, List.contains_iff_mem]
  split
  · rename_i hreads
    simp [hreads, eq_comm]
  · rename_i hreads
    split
    · rename_i hwrites
      simp [hreads, hwrites, eq_comm]
    · rename_i hwrites
      simp [hreads, hwrites]

theorem databaseUse?_ne_apiCall {method : String} : databaseUse? method ≠ some .apiCall := by
  rw [Ne, databaseUse?_eq_some_iff]
  rintro (⟨⟨⟩, -⟩ | ⟨⟨⟩, -⟩)

/-- What the call of a method leaves: a mark for the database and one for the request library. -/
theorem mem_methodMarks_iff {object method : String} : edge ∈ methodMarks file object method ↔
    (∃ kind, databaseUse? method = some kind ∧
        edge = markOf file kind [("method", .str method), ("object", .str object)]) ∨
      (object ∈ Signals.requestModules ∧ method ∈ Signals.requestFunctions) ∧
        edge = markOf file .apiCall [("method", .str method), ("module", .str object)] := by
  unfold methodMarks
  rw [List.mem_append]
  refine or_congr ?_ ?_
  · cases databaseUse? method with
    | none => simp
    | some kind =>
        rw [List.mem_singleton]
        simp only [Option.some_inj, exists_eq_left']
        rfl
  · have hboth : (Signals.requestModules.contains object
        && Signals.requestFunctions.contains method) = true ↔
          object ∈ Signals.requestModules ∧ method ∈ Signals.requestFunctions := by
      rw [Bool.and_eq_true, List.contains_iff_mem, List.contains_iff_mem]
    split
    · rename_i hknown
      rw [List.mem_singleton, and_iff_right (hboth.mp hknown)]
      rfl
    · rename_i hunknown
      exact iff_of_false List.not_mem_nil fun h => hunknown (hboth.mpr h.1)

/-- No library is called by an empty name. -/
theorem objectName_mem_requestModules_iff {callee : Tree} {name : String} :
    objectName callee = name ∧ name ∈ Signals.requestModules ↔
      (∃ object, callee.parts.head? = some object ∧ object.form = .name name) ∧
        name ∈ Signals.requestModules := by
  have hempty : "" ∉ Signals.requestModules := by decide
  refine and_congr_left fun hname => ?_
  have hne : "" ≠ name := fun heq => hempty (heq ▸ hname)
  unfold objectName
  cases callee.parts.head? with
  | none => simp [hne]
  | some object =>
      dsimp only
      simp only [Option.some_inj, exists_eq_left']
      cases object.form <;> simp [hne]

/-- The call of a method tells of a use of the database or of a request. -/
theorem Tree.triggers_attribute_iff {t callee : Tree} {method : String} {facts : Metadata}
    (hcalls : t.Calls callee) (hform : callee.form = .attribute method) :
    t.Triggers kind facts ↔
      databaseUse? method = some kind ∧
          facts = [("method", .str method), ("object", .str (objectName callee))] ∨
        kind = .apiCall ∧ (objectName callee ∈ Signals.requestModules ∧
            method ∈ Signals.requestFunctions) ∧
          facts = [("method", .str method), ("module", .str (objectName callee))] := by
  constructor
  · intro h
    cases h with
    | read calls form reads =>
        obtain rfl := calls.unique hcalls
        cases form.symm.trans hform
        exact Or.inl ⟨databaseUse?_eq_some_iff.mpr (Or.inl ⟨rfl, reads⟩), rfl⟩
    | write calls form writes reads =>
        obtain rfl := calls.unique hcalls
        cases form.symm.trans hform
        exact Or.inl ⟨databaseUse?_eq_some_iff.mpr (Or.inr ⟨rfl, writes, reads⟩), rfl⟩
    | request calls form object_part object_form library_known method_known =>
        obtain rfl := calls.unique hcalls
        cases form.symm.trans hform
        obtain ⟨hname, hknown⟩ := objectName_mem_requestModules_iff.mpr
          ⟨⟨_, object_part, object_form⟩, library_known⟩
        rw [hname]
        exact Or.inr ⟨rfl, ⟨hknown, method_known⟩, rfl⟩
    | fetch calls form fetches =>
        obtain rfl := calls.unique hcalls
        cases form.symm.trans hform
  · rintro (⟨huse, rfl⟩ | ⟨rfl, ⟨hlibrary, hmethod⟩, rfl⟩)
    · rcases databaseUse?_eq_some_iff.mp huse with ⟨rfl, hreads⟩ | ⟨rfl, hwrites, hreads⟩
      · exact .read hcalls hform hreads
      · exact .write hcalls hform hwrites hreads
    · obtain ⟨⟨object, hpart, hobject⟩, -⟩ :=
        objectName_mem_requestModules_iff.mp ⟨rfl, hlibrary⟩
      exact .request hcalls hform hpart hobject hlibrary hmethod

/-- The call of a bare name tells of a request at most. -/
theorem Tree.triggers_name_iff {t callee : Tree} {function : String} {facts : Metadata}
    (hcalls : t.Calls callee) (hform : callee.form = .name function) :
    t.Triggers kind facts ↔
      kind = .apiCall ∧ function ∈ Signals.fetchFunctions ∧
        facts = [("function", .str function)] := by
  constructor
  · intro h
    cases h with
    | fetch calls form fetches =>
        obtain rfl := calls.unique hcalls
        cases form.symm.trans hform
        exact ⟨rfl, fetches, rfl⟩
    | _ calls form =>
        obtain rfl := calls.unique hcalls
        cases form.symm.trans hform
  · rintro ⟨rfl, hfetches, rfl⟩
    exact .fetch hcalls hform hfetches

/-- What tells of its file calls a method or a bare name. -/
theorem Tree.Triggers.form_cases {t : Tree} {facts : Metadata} (h : t.Triggers kind facts) :
    ∃ callee, t.Calls callee ∧
      ((∃ method, callee.form = .attribute method) ∨ ∃ function, callee.form = .name function) := by
  cases h with
  | fetch calls form => exact ⟨_, calls, Or.inr ⟨_, form⟩⟩
  | _ calls form => exact ⟨_, calls, Or.inl ⟨_, form⟩⟩

/-- A call notes one thing only for each kind of mark. -/
theorem Tree.Triggers.facts_unique {t : Tree} {facts other : Metadata}
    (h : t.Triggers kind facts) (hother : t.Triggers kind other) : facts = other := by
  obtain ⟨callee, hcalls, ⟨method, hform⟩ | ⟨function, hform⟩⟩ := h.form_cases
  · rw [Tree.triggers_attribute_iff hcalls hform] at h hother
    rcases h with ⟨huse, rfl⟩ | ⟨hkind, -, rfl⟩ <;>
      rcases hother with ⟨huse', rfl⟩ | ⟨hkind', -, rfl⟩
    · rfl
    · exact absurd (hkind' ▸ huse) databaseUse?_ne_apiCall
    · exact absurd (hkind ▸ huse') databaseUse?_ne_apiCall
    · rfl
  · rw [Tree.triggers_name_iff hcalls hform] at h hother
    rw [h.2.2, hother.2.2]

/-- The marks of a method are what its call tells of the file. -/
theorem mem_methodMarks_iff_triggers {t callee : Tree} {method : String} (hcalls : t.Calls callee)
    (hform : callee.form = .attribute method) :
    edge ∈ methodMarks file (objectName callee) method ↔
      ∃ facts, t.Triggers edge.kind facts ∧ edge = markOf file edge.kind facts := by
  simp only [Tree.triggers_attribute_iff hcalls hform, mem_methodMarks_iff, or_and_right, exists_or]
  refine or_congr ⟨?_, ?_⟩ ⟨?_, ?_⟩
  · rintro ⟨kind, huse, rfl⟩
    exact ⟨_, ⟨huse, rfl⟩, rfl⟩
  · rintro ⟨_, ⟨huse, rfl⟩, hedge⟩
    exact ⟨edge.kind, huse, hedge⟩
  · rintro ⟨hknown, rfl⟩
    exact ⟨_, ⟨rfl, hknown, rfl⟩, rfl⟩
  · rintro ⟨_, ⟨hkind, hknown, rfl⟩, hedge⟩
    exact ⟨hknown, hkind ▸ hedge⟩

/-- **The marks of a call** are what it tells of its file. -/
theorem mem_callMarks_iff {t : Tree} (hcall : t.form = .call) : edge ∈ callMarks file t ↔
    ∃ facts, t.Triggers edge.kind facts ∧ edge = markOf file edge.kind facts := by
  unfold callMarks
  split
  · rename_i callee hcallee
    have hcalls : t.Calls callee := ⟨hcall, hcallee⟩
    split
    · rename_i method hform
      exact mem_methodMarks_iff_triggers hcalls hform
    · rename_i function hform
      simp only [Tree.triggers_name_iff hcalls hform]
      split
      · rename_i hfetches
        rw [List.mem_singleton]
        constructor
        · rintro rfl
          exact ⟨_, ⟨rfl, List.contains_iff_mem.mp hfetches, rfl⟩, rfl⟩
        · rintro ⟨_, ⟨hkind, -, rfl⟩, hedge⟩
          rw [hkind] at hedge
          exact hedge
      · rename_i hother
        refine iff_of_false List.not_mem_nil ?_
        rintro ⟨_, ⟨-, hfetches, -⟩, -⟩
        exact hother (List.contains_iff_mem.mpr hfetches)
    · rename_i hattribute hname
      refine iff_of_false List.not_mem_nil ?_
      rintro ⟨_, htriggers, -⟩
      obtain ⟨other, hother, hform⟩ := htriggers.form_cases
      obtain rfl := hcalls.unique hother
      rcases hform with ⟨method, hform⟩ | ⟨function, hform⟩
      · exact hattribute method hform
      · exact hname function hform
  · rename_i hempty
    refine iff_of_false List.not_mem_nil ?_
    rintro ⟨_, htriggers, -⟩
    obtain ⟨callee, hcalls, -⟩ := htriggers.form_cases
    rw [hcalls.2] at hempty
    cases hempty

/-! ## The first mark of a kind -/

/-- The marks that a form leaves; only calls leave any. -/
def visitMarks (file : SourceFile) (visit : Tree.Visit) : List Edge :=
  if visit.tree.form = .call then callMarks file visit.tree else []

theorem marks_eq_flatMap (file : SourceFile) (tree : Tree) :
    marks file tree = (tree.visits []).flatMap (visitMarks file) := by
  rw [marks, treesWhere, List.flatMap_map]
  induction tree.visits [] with
  | nil => rfl
  | cons visit rest ih =>
      rw [List.flatMap_cons, visitMarks, ← ih]
      by_cases hcall : visit.tree.form = .call
      · rw [List.filter_cons_of_pos (by simpa using hcall), if_pos hcall, List.flatMap_cons]
      · rw [List.filter_cons_of_neg (by simpa using hcall), if_neg hcall, List.nil_append]

theorem mem_visitMarks_iff {visit : Tree.Visit} : edge ∈ visitMarks file visit ↔
    ∃ facts, visit.tree.Triggers edge.kind facts ∧ edge = markOf file edge.kind facts := by
  unfold visitMarks
  split
  · rename_i hcall
    exact mem_callMarks_iff hcall
  · rename_i hother
    refine iff_of_false List.not_mem_nil ?_
    rintro ⟨_, htriggers, -⟩
    obtain ⟨callee, hcalls, -⟩ := htriggers.form_cases
    exact hother hcalls.1

/-- A form leaves one mark of a kind at most, so that the first one is the only one. -/
theorem find?_visitMarks_eq_some_iff {visit : Tree.Visit} :
    (visitMarks file visit).find? (fun e => e.kind = kind) = some edge ↔
      ∃ facts, visit.tree.Triggers kind facts ∧ edge = markOf file kind facts := by
  constructor
  · intro hfound
    have hkind : edge.kind = kind := by simpa using List.find?_some hfound
    rw [← hkind]
    exact mem_visitMarks_iff.mp (List.mem_of_find?_eq_some hfound)
  · rintro ⟨facts, htriggers, rfl⟩
    have hmem : markOf file kind facts ∈ visitMarks file visit :=
      mem_visitMarks_iff.mpr ⟨facts, htriggers, rfl⟩
    obtain ⟨first, hfirst⟩ := Option.isSome_iff_exists.mp
      (List.find?_isSome.mpr ⟨_, hmem, decide_eq_true rfl⟩ :
        ((visitMarks file visit).find? fun e => e.kind = kind).isSome = true)
    have hkind : first.kind = kind := by simpa using List.find?_some hfirst
    -- whichever mark of the kind stands first, it notes the same
    obtain ⟨other, hother, hmark⟩ := mem_visitMarks_iff.mp (List.mem_of_find?_eq_some hfirst)
    rw [hkind] at hother hmark
    rw [hfirst, hmark, htriggers.facts_unique hother]

/-- A form that tells of marks of the kind stands at the place. -/
def Tree.TriggersAt (t : Tree) (kind : EdgeKind) (place : List Nat) (visit : Tree.Visit) : Prop :=
  t.at? [] place = some visit ∧ ∃ facts, visit.tree.Triggers kind facts

/-- Of the places where a form tells of marks of the kind one is the first. -/
theorem Tree.exists_firstAt_triggersAt {t : Tree} {place : List Nat} {visit : Tree.Visit}
    (h : t.TriggersAt kind place visit) :
    ∃ place visit, Tree.FirstAt (t.TriggersAt kind) place visit := by
  have hwalk : ∃ met ∈ t.walk [], ∃ facts, met.2.tree.Triggers kind facts :=
    ⟨(place, visit), (Tree.mem_walk_iff [] place visit t).mpr h.1, h.2⟩
  obtain ⟨⟨place, visit⟩, hfirst⟩ := exists_firstWith_iff.mpr hwalk
  exact ⟨place, visit, (Tree.firstWith_iff_firstAt
    (fun place visit => Tree.mem_walk_iff [] place visit t) (Tree.pairwise_walk [] t)
    fun visit => ∃ facts, visit.tree.Triggers kind facts).mp hfirst⟩

/-- **The first mark of a kind** is that of the first call in the text that tells of it. -/
theorem find?_marks_eq_some_iff {tree : Tree} :
    (marks file tree).find? (fun e => e.kind = kind) = some edge ↔
      ∃ place visit, Tree.FirstAt (tree.TriggersAt kind) place visit ∧
        ∃ facts, visit.tree.Triggers kind facts ∧ edge = markOf file kind facts := by
  have hsome : ∀ visit : Tree.Visit,
      ((visitMarks file visit).find? fun e => e.kind = kind).isSome = true ↔
        ∃ facts, visit.tree.Triggers kind facts := by
    intro visit
    rw [Option.isSome_iff_exists]
    simp only [find?_visitMarks_eq_some_iff]
    exact ⟨fun ⟨_, facts, h, _⟩ => ⟨facts, h⟩, fun ⟨facts, h⟩ => ⟨_, facts, h, rfl⟩⟩
  rw [marks_eq_flatMap, ← Tree.map_snd_walk, List.flatMap_map, List.find?_flatMap,
    findSome?_eq_some_iff_firstWith]
  simp only [hsome, Prod.exists, find?_visitMarks_eq_some_iff]
  refine exists_congr fun place => exists_congr fun visit => and_congr_left fun _ => ?_
  exact Tree.firstWith_iff_firstAt (fun place visit => Tree.mem_walk_iff [] place visit tree)
    (Tree.pairwise_walk [] tree) fun visit => ∃ facts, visit.tree.Triggers kind facts

/-- There is a mark of a kind exactly when some form in the tree tells of it. -/
theorem isSome_find?_marks_iff (file : SourceFile) {tree : Tree} :
    ((marks file tree).find? fun e => e.kind = kind).isSome = true ↔
      ∃ place visit, tree.TriggersAt kind place visit := by
  rw [Option.isSome_iff_exists]
  constructor
  · rintro ⟨edge, hfound⟩
    obtain ⟨place, visit, hfirst, -⟩ := find?_marks_eq_some_iff.mp hfound
    exact ⟨place, visit, hfirst.1⟩
  · rintro ⟨place, visit, htriggers⟩
    obtain ⟨place, visit, hfirst⟩ := Tree.exists_firstAt_triggersAt htriggers
    obtain ⟨facts, hfacts⟩ := hfirst.1.2
    exact ⟨_, find?_marks_eq_some_iff.mpr ⟨place, visit, hfirst, facts, hfacts, rfl⟩⟩

/-! ## Marks among all edges -/

theorem filter_methodContents_isMark (className : String) (visit : Tree.Visit) :
    ((methodContents file className visit).edges.filter fun e => e.kind.IsMark) = [] := by
  unfold methodContents
  split
  · split <;> simp [EdgeKind.IsMark]
  · rfl

theorem filter_classContents_isMark (visit : Tree.Visit) :
    ((classContents file visit).edges.filter fun e => e.kind.IsMark) = [] := by
  unfold classContents
  split
  · have huses : ¬ EdgeKind.uses.IsMark := by decide
    have hinherits : ¬ EdgeKind.inherits.IsMark := by decide
    simp [Contents.owned, Contents.base, List.filter_flatMap, List.flatMap_map,
      filter_methodContents_isMark, huses, hinherits]
  · rfl

theorem filter_functionContents_isMark (visit : Tree.Visit) :
    ((functionContents file visit).edges.filter fun e => e.kind.IsMark) = [] := by
  unfold functionContents
  split
  · dsimp only
    split <;> simp [Contents.owned, EdgeKind.IsMark]
  · rfl

/-- **The marks of a file** are all edges of these kinds that it puts in. -/
theorem filter_contents_isMark (file : SourceFile) (tree : Tree) :
    ((contents file tree).edges.filter fun e => e.kind.IsMark) = marks file tree := by
  have himports : ∀ target ∈ imports tree,
      (({ edges := [importEdge file target] } : Contents).edges.filter fun e => e.kind.IsMark)
        = [] := by
    intro target _
    simp [importEdge, EdgeKind.IsMark]
  have hmarks : ∀ mark ∈ marks file tree,
      (({ edges := [mark] } : Contents).edges.filter fun e => e.kind.IsMark) = [mark] := by
    intro mark hmark
    exact List.filter_cons_of_pos (decide_eq_true (isMark_of_mem_marks hmark).2.2)
  simp only [contents, Contents.edges_append, List.filter_append,
    Contents.filter_edges_all_eq_nil fun visit _ => filter_classContents_isMark visit,
    Contents.filter_edges_all_eq_nil fun visit _ => filter_functionContents_isMark visit,
    Contents.filter_edges_all_eq_nil himports, Contents.filter_edges_all hmarks,
    List.nil_append, List.flatMap_singleton']

/-- A search for a mark passes over all that is no mark. -/
theorem find?_edges_contents (hkind : kind.IsMark) (tree : Tree) :
    (contents file tree).edges.find? (fun e => e.triple = (file.id, file.id, kind))
      = (marks file tree).find? fun e => e.kind = kind := by
  rw [← List.head?_filter, ← List.head?_filter, ← filter_contents_isMark, List.filter_filter]
  refine congrArg List.head? (List.filter_congr fun e he => ?_)
  rw [Bool.eq_iff_iff, decide_eq_true_iff, Bool.and_eq_true, decide_eq_true_iff,
    decide_eq_true_iff]
  constructor
  · intro htriple
    have h : e.kind = kind := congrArg (fun t => t.2.2) htriple
    exact ⟨h, h ▸ hkind⟩
  · rintro ⟨rfl, hmark⟩
    have hmem : e ∈ marks file tree := by
      rw [← filter_contents_isMark]
      exact List.mem_filter.mpr ⟨he, decide_eq_true hmark⟩
    obtain ⟨hsource, htarget, -⟩ := isMark_of_mem_marks hmem
    rw [Edge.triple, hsource, htarget]

end

end Python

/-! ## Files that tell of marks -/

namespace SourceFile

/-- The file reads as this tree: it is a Python file that can be read and is well-formed. -/
structure ReadsAs (file : SourceFile) (tree : FileTree) (t : Python.Tree) : Prop where
  language : file.language = .python
  read : ∃ text, file.read tree none = .ok text ∧ .ofText text = t
  wellFormed : t.hasFault = false

/-- Some call in the file tells of marks of the kind, wherever in the tree it stands. -/
def Tells (file : SourceFile) (tree : FileTree) (kind : EdgeKind) : Prop :=
  ∃ t, file.ReadsAs tree t ∧ ∃ place visit, t.TriggersAt kind place visit

/-- Of the calls in the file that tell of marks of the kind the first notes these facts. -/
def TellsFirst (file : SourceFile) (tree : FileTree) (kind : EdgeKind) (facts : Metadata) : Prop :=
  ∃ t, file.ReadsAs tree t ∧ ∃ place visit,
    Python.Tree.FirstAt (t.TriggersAt kind) place visit ∧ visit.tree.Triggers kind facts

section

variable {tree : FileTree} {settings : ExtractionSettings} {file : SourceFile} {t : Python.Tree}
  {kind : EdgeKind}

theorem ReadsAs.unique {other : Python.Tree} (h : file.ReadsAs tree t)
    (hother : file.ReadsAs tree other) : t = other := by
  obtain ⟨text, hread, rfl⟩ := h.read
  obtain ⟨text', hread', rfl⟩ := hother.read
  cases hread.symm.trans hread'
  rfl

theorem ReadsAs.contents_eq (h : file.ReadsAs tree t) :
    file.contents tree settings = Python.contents file t := by
  obtain ⟨text, hread, rfl⟩ := h.read
  exact contents_of_python settings h.language hread h.wellFormed

/-- A Python file that reads as no tree puts nothing in. -/
theorem contents_of_not_readsAs (hlanguage : file.language = .python)
    (h : ∀ t, ¬ file.ReadsAs tree t) : file.contents tree settings = {} := by
  have hlimit : Language.python.readLimit? settings.readLimit = none := rfl
  rw [contents, hlanguage, hlimit]
  cases hread : file.read tree none with
  | error e => rfl
  | ok text =>
      refine if_pos (Bool.not_eq_false _ ▸ fun hwell => ?_)
      exact h _ ⟨hlanguage, ⟨text, hread, rfl⟩, hwell⟩

/-- Where calls tell of marks one of them is the first. -/
theorem tells_iff : file.Tells tree kind ↔ ∃ facts, file.TellsFirst tree kind facts := by
  constructor
  · rintro ⟨t, hreads, place, visit, htriggers⟩
    obtain ⟨place, visit, hfirst⟩ := Python.Tree.exists_firstAt_triggersAt htriggers
    obtain ⟨facts, hfacts⟩ := hfirst.1.2
    exact ⟨facts, t, hreads, place, visit, hfirst, hfacts⟩
  · rintro ⟨facts, t, hreads, place, visit, hfirst, -⟩
    exact ⟨t, hreads, place, visit, hfirst.1⟩

theorem ReadsAs.tells_iff (h : file.ReadsAs tree t) :
    file.Tells tree kind ↔ ∃ place visit, t.TriggersAt kind place visit := by
  constructor
  · rintro ⟨other, hother, htriggers⟩
    rwa [h.unique hother]
  · exact fun htriggers => ⟨t, h, htriggers⟩

/-- **What a Python file marks**: the first mark of a kind is that of the first call in its tree
that tells of such marks, and there is none if it reads as no tree. -/
theorem find?_contents_mark_iff (hlanguage : file.language = .python) (hkind : kind.IsMark)
    {edge : Edge} :
    (file.contents tree settings).edges.find? (fun e => e.triple = (file.id, file.id, kind))
        = some edge ↔
      ∃ facts, file.TellsFirst tree kind facts ∧ edge = Python.markOf file kind facts := by
  by_cases h : ∃ t, file.ReadsAs tree t
  · obtain ⟨t, hreads⟩ := h
    rw [hreads.contents_eq, Python.find?_edges_contents hkind, Python.find?_marks_eq_some_iff]
    constructor
    · rintro ⟨place, visit, hfirst, facts, hfacts, rfl⟩
      exact ⟨facts, ⟨t, hreads, place, visit, hfirst, hfacts⟩, rfl⟩
    · rintro ⟨facts, ⟨other, hother, place, visit, hfirst, hfacts⟩, rfl⟩
      obtain rfl := hreads.unique hother
      exact ⟨place, visit, hfirst, facts, hfacts, rfl⟩
  · rw [not_exists] at h
    rw [contents_of_not_readsAs hlanguage h]
    refine iff_of_false (by simp) ?_
    rintro ⟨facts, ⟨t, hreads, -⟩, -⟩
    exact h t hreads

end

end SourceFile

/-! ## Marks in a report -/

section

variable {tree : FileTree} {settings : ExtractionSettings} {files : List SourceFile}
  {file other : SourceFile} {kind : EdgeKind} {edge : Edge}

/-- A mark on a file comes from a file with its path. -/
theorem path_eq_of_mark (h : edge ∈ (other.contribution tree settings).edges.toList)
    (hkind : edge.kind ≠ .imports) (hsource : edge.source = file.id) : other.path = file.path := by
  rcases (other.grown_contribution tree settings).mem_edges h with ⟨-, hends⟩ | ⟨target, -, rfl⟩
  · rw [Graph.holdsEnds, Bool.and_eq_true, hsource] at hends
    exact path_eq_of_contains hends.1
  · exact absurd rfl hkind

/-- **Only files with its path mark a file**, and they do so by their calls. -/
theorem find?_contribution_mark_iff
    (hlanguage : other.path = file.path → other.language = .python) (hkind : kind.IsMark) :
    (other.contribution tree settings).edges.toList.find?
        (fun e => e.triple = (file.id, file.id, kind)) = some edge ↔
      other.path = file.path ∧
        ∃ facts, other.TellsFirst tree kind facts ∧ edge = Python.markOf file kind facts := by
  by_cases hpath : other.path = file.path
  · have hid : file.id = other.id := congrArg fileId hpath.symm
    have hmark (facts : Metadata) :
        Python.markOf file kind facts = Python.markOf other kind facts := by
      simp only [Python.markOf, hid]
    simp only [and_iff_right hpath, hmark]
    rw [SourceFile.edges_contribution, hid]
    exact SourceFile.find?_contents_mark_iff (hlanguage hpath) hkind
  · refine iff_of_false (fun hfound => hpath ?_) fun h => hpath h.1
    have htriple : edge.triple = (file.id, file.id, kind) := by simpa using List.find?_some hfound
    simp only [Edge.triple, Prod.mk.injEq] at htriple
    exact path_eq_of_mark (List.mem_of_find?_eq_some hfound)
      (htriple.2.2 ▸ hkind.ne_imports) htriple.1

/-- **The marks of a kind on a file** are one at most: the first that a file with its path makes. -/
theorem mem_edges_finish_mark_iff
    (hlanguage : ∀ other ∈ files, other.path = file.path → other.language = .python)
    (hkind : kind.IsMark) (htriple : edge.triple = (file.id, file.id, kind)) :
    edge ∈ ((combined tree settings files).finish files).edges.toList ↔
      ∃ other, FirstWith (fun o => o.path = file.path ∧ o.Tells tree kind) files other ∧
        ∃ facts, other.TellsFirst tree kind facts ∧ edge = Python.markOf file kind facts := by
  have hne : edge.kind ≠ .imports := by
    rw [show edge.kind = kind from congrArg (fun t => t.2.2) htriple]
    exact hkind.ne_imports
  have hmakes : ∀ other ∈ files, ((other.contribution tree settings).edges.toList.find?
      fun e => e.triple = (file.id, file.id, kind)).isSome = true ↔
        other.path = file.path ∧ other.Tells tree kind := by
    intro other hother
    simp only [Option.isSome_iff_exists, find?_contribution_mark_iff (hlanguage other hother) hkind,
      exists_and_left, SourceFile.tells_iff]
    exact and_congr_right fun _ =>
      ⟨fun ⟨_, facts, h, _⟩ => ⟨facts, h⟩, fun ⟨facts, h⟩ => ⟨_, facts, h, rfl⟩⟩
  rw [mem_edges_finish_of_ne_imports hne, Graph.isFirst_iff_find?, htriple, contributedEdges,
    List.find?_flatMap, findSome?_eq_some_iff_firstWith]
  constructor
  · rintro ⟨other, hfirst, hfound⟩
    have hmark := (find?_contribution_mark_iff (hlanguage other hfirst.mem) hkind).mp hfound
    exact ⟨other, hfirst.congr hmakes, hmark.2⟩
  · rintro ⟨other, hfirst, hmark⟩
    refine ⟨other, hfirst.congr fun o ho => (hmakes o ho).symm, ?_⟩
    exact (find?_contribution_mark_iff (hlanguage other hfirst.mem) hkind).mpr
      ⟨hfirst.holds.1, hmark⟩

/-- The report has those marks of a kind on a file that the files with its path tell of. -/
structure Report.MarkedByFiles (report : Report) (tree : FileTree) (files : List SourceFile)
    (file : SourceFile) (kind : EdgeKind) : Prop where
  /-- There is a mark exactly when some call in one of these files tells of it. -/
  marked_iff : (∃ edge ∈ report.edges, edge.triple = (file.id, file.id, kind)) ↔
    ∃ other ∈ files, other.path = file.path ∧ other.Tells tree kind
  /-- There is one mark at most. -/
  once : (report.edges.filter fun edge => edge.triple = (file.id, file.id, kind)).length ≤ 1
  /-- The mark notes what the first of the calls notes in the first of the files that have any. -/
  first : ∀ edge ∈ report.edges, edge.triple = (file.id, file.id, kind) →
    ∃ other, FirstWith (fun o => o.path = file.path ∧ o.Tells tree kind) files other ∧
      other.TellsFirst tree kind edge.metadata

/-- The report has those marks of a kind on a file that the calls in its own tree tell of. -/
structure Report.MarkedByCalls (report : Report) (file : SourceFile) (t : Python.Tree)
    (kind : EdgeKind) : Prop where
  /-- There is a mark exactly when some call tells of it, wherever in the tree it stands. -/
  marked_iff : (∃ edge ∈ report.edges, edge.triple = (file.id, file.id, kind)) ↔
    ∃ place visit, t.TriggersAt kind place visit
  /-- There is one mark at most. -/
  once : (report.edges.filter fun edge => edge.triple = (file.id, file.id, kind)).length ≤ 1
  /-- The mark notes what the first of these calls notes. -/
  first : ∀ edge ∈ report.edges, edge.triple = (file.id, file.id, kind) →
    ∃ place visit, Python.Tree.FirstAt (t.TriggersAt kind) place visit ∧
      visit.tree.Triggers kind edge.metadata

theorem markedByFiles_finish
    (hlanguage : ∀ other ∈ files, other.path = file.path → other.language = .python)
    (hkind : kind.IsMark) {report : Report}
    (hedges : report.edges = ((combined tree settings files).finish files).edges.toList) :
    report.MarkedByFiles tree files file kind := by
  have hmark : ∀ {edge : Edge}, edge.triple = (file.id, file.id, kind) → (edge ∈ report.edges ↔
      ∃ other, FirstWith (fun o => o.path = file.path ∧ o.Tells tree kind) files other ∧
        ∃ facts, other.TellsFirst tree kind facts ∧ edge = Python.markOf file kind facts) := by
    intro edge htriple
    rw [hedges]
    exact mem_edges_finish_mark_iff hlanguage hkind htriple
  refine ⟨⟨?_, ?_⟩, ?_, ?_⟩
  · rintro ⟨edge, hedge, htriple⟩
    obtain ⟨other, hfirst, -⟩ := (hmark htriple).mp hedge
    exact ⟨other, hfirst.mem, hfirst.holds⟩
  · -- where some file tells of a mark one of them is the first, and its mark is kept
    intro hsome
    obtain ⟨other, hfirst⟩ := exists_firstWith_iff.mpr hsome
    obtain ⟨facts, hfacts⟩ := SourceFile.tells_iff.mp hfirst.holds.2
    exact ⟨Python.markOf file kind facts,
      (hmark rfl).mpr ⟨other, hfirst, facts, hfacts, rfl⟩, rfl⟩
  · have hnodup := Graph.nodup_triples_finish (combined tree settings files) files
    rw [← hedges, List.nodup_iff_count_le_one] at hnodup
    have hcount := hnodup (file.id, file.id, kind)
    rw [List.count, List.countP_map, List.countP_eq_length_filter] at hcount
    simpa only [Function.comp_def, beq_eq_decide] using hcount
  · intro edge hedge htriple
    obtain ⟨other, hfirst, facts, hfacts, rfl⟩ := (hmark htriple).mp hedge
    exact ⟨other, hfirst, hfacts⟩

/-- A file whose path no other file has is marked by its own calls. -/
theorem Report.MarkedByFiles.markedByCalls {report : Report}
    (h : report.MarkedByFiles tree files file kind) (hfile : file ∈ files) {t : Python.Tree}
    (hreads : file.ReadsAs tree t)
    (halone : ∀ other ∈ files, other.path = file.path → other = file) :
    report.MarkedByCalls file t kind := by
  refine ⟨h.marked_iff.trans ⟨?_, fun htriggers => ?_⟩, h.once, fun edge hedge htriple => ?_⟩
  · rintro ⟨other, hother, hpath, htells⟩
    obtain rfl := halone other hother hpath
    exact hreads.tells_iff.mp htells
  · exact ⟨file, hfile, rfl, hreads.tells_iff.mpr htriggers⟩
  · obtain ⟨other, hfirst, t', hreads', hnotes⟩ := h.first edge hedge htriple
    obtain rfl := halone other hfirst.mem hfirst.holds.1
    obtain rfl := hreads.unique hreads'
    exact hnotes

end

/-- **A file is marked by its calls**: in the report on a repository every Python file has an edge
to itself for each kind of mark that some call tells of in it or in a file that is shown under the
same path, and for no other kind. There is one at most of each kind, and it notes what the first of
these calls notes. A file that is shown under a path of its own has the marks of its own calls. -/
theorem marked_by_calls {host : Host} {tree : FileTree} {here root : Place} {path : RawText}
    (hroot : repositoryAt tree here path = .ok root) {settings : Settings}
    (hpool : host.pool settings.extraction.workers = .ok ()) {file : SourceFile}
    (hfile : file ∈ repositoryFiles tree root settings.discovery)
    (hlanguage : file.language = .python) :
    ∃ report, analyze host tree settings here path = .ok report ∧
      ∀ kind : EdgeKind, kind.IsMark →
        report.MarkedByFiles tree (repositoryFiles tree root settings.discovery) file kind ∧
        ∀ t, file.ReadsAs tree t →
          (∀ other ∈ repositoryFiles tree root settings.discovery,
            other.path = file.path → other = file) →
          report.MarkedByCalls file t kind := by
  have hpython : ∀ other ∈ repositoryFiles tree root settings.discovery,
      other.path = file.path → other.language = .python := fun other hother hpath =>
    (language_eq_of_path_eq hother hfile hpath).trans hlanguage
  refine ⟨_, analyze_eq_ok hroot hpool, fun kind hkind => ?_⟩
  have hmarked : (repositoryReport tree settings root).MarkedByFiles tree
      (repositoryFiles tree root settings.discovery) file kind :=
    markedByFiles_finish hpython hkind rfl
  exact ⟨hmarked, fun t hreads halone => hmarked.markedByCalls hfile hreads halone⟩

/-- A request that counts as reading from a database as well, with a write in its argument. -/
def callsInCalls : String :=
  "httpx.get(a.add())\n"

/-- The file is marked by its calls. -/
theorem marked_by_calls_callsInCalls :
    repositoryAt (onlyFile callsInCalls) [] "/repo" = .ok ["repo"] ∧
      theFile ∈ repositoryFiles (onlyFile callsInCalls) ["repo"] {} ∧
      theFile.language = .python ∧
      theFile.ReadsAs (onlyFile callsInCalls) (.ofText callsInCalls.toList) ∧
      ∃ report, analyze {} (onlyFile callsInCalls) {} [] "/repo" = .ok report ∧
        ∀ kind : EdgeKind, kind.IsMark →
          report.MarkedByCalls theFile (.ofText callsInCalls.toList) kind := by
  have hroot : repositoryAt (onlyFile callsInCalls) [] "/repo" = .ok ["repo"] := by cbv
  have hfiles : repositoryFiles (onlyFile callsInCalls) ["repo"] {} = [theFile] :=
    repositoryFiles_onlyFile callsInCalls
  have hfile : theFile ∈ repositoryFiles (onlyFile callsInCalls) ["repo"] {} := by
    rw [hfiles]
    exact List.mem_singleton_self theFile
  have hlanguage : theFile.language = .python := by cbv
  have hread : theFile.read (onlyFile callsInCalls) none = .ok callsInCalls.toList := by cbv
  have hwell : (Python.Tree.ofText callsInCalls.toList).hasFault = false := by cbv
  have hreads : theFile.ReadsAs (onlyFile callsInCalls) (.ofText callsInCalls.toList) :=
    ⟨hlanguage, ⟨_, hread, rfl⟩, hwell⟩
  have halone : ∀ other ∈ repositoryFiles (onlyFile callsInCalls) ["repo"] {},
      other.path = theFile.path → other = theFile := by
    intro other hother _
    rw [hfiles] at hother
    exact List.mem_singleton.mp hother
  obtain ⟨report, hreport, hmarked⟩ :=
    @marked_by_calls {} (onlyFile callsInCalls) [] ["repo"] "/repo" hroot {} rfl theFile hfile
      hlanguage
  exact ⟨hroot, hfile, hlanguage, hreads, report, hreport,
    fun kind hkind => (hmarked kind hkind).2 _ hreads halone⟩

/-! ## Marks of another file -/

/-- A file without calls beside one with a request, both shown under one path. -/
def requestBeside : FileTree :=
  shownAlike (Text.Utf8.encode "x = 1\n") (Text.Utf8.encode "requests.get(u)\n")

/-- **A file may have the mark of another file**: no call in it tells of a request, and a request in
the file that is shown under the same path marks it. -/
theorem marked_by_other_file :
    repositoryAt requestBeside [] "/repo" = .ok ["repo"] ∧ requestBeside.WellNamed ∧
      firstShownAlike ∈ repositoryFiles requestBeside ["repo"] {} ∧
      firstShownAlike.ReadsAs requestBeside (.ofText "x = 1\n".toList) ∧
      (¬ ∃ place visit, (Python.Tree.ofText "x = 1\n".toList).TriggersAt .apiCall place visit) ∧
      ∃ report, analyze {} requestBeside {} [] "/repo" = .ok report ∧
        ∃ edge ∈ report.edges,
          edge.triple = (firstShownAlike.id, firstShownAlike.id, .apiCall) := by
  have hroot : repositoryAt requestBeside [] "/repo" = .ok ["repo"] := repositoryAt_shownAlike _ _
  have hfiles : repositoryFiles requestBeside ["repo"] {} = [firstShownAlike, secondShownAlike] :=
    repositoryFiles_shownAlike _ _
  have hfirst : firstShownAlike ∈ repositoryFiles requestBeside ["repo"] {} := by simp [hfiles]
  have hsecond : secondShownAlike ∈ repositoryFiles requestBeside ["repo"] {} := by simp [hfiles]
  have hlanguage : firstShownAlike.language = .python := by cbv
  have hreads : firstShownAlike.ReadsAs requestBeside (.ofText "x = 1\n".toList) := by
    refine ⟨hlanguage, ⟨_, ?_, rfl⟩, by cbv⟩
    cbv
  have hother : secondShownAlike.ReadsAs requestBeside (.ofText "requests.get(u)\n".toList) := by
    refine ⟨by cbv, ⟨_, ?_, rfl⟩, by cbv⟩
    cbv
  have hnone : ¬ ∃ place visit,
      (Python.Tree.ofText "x = 1\n".toList).TriggersAt .apiCall place visit := by
    have hmarks : Python.marks firstShownAlike (.ofText "x = 1\n".toList) = [] := by cbv
    rw [← Python.isSome_find?_marks_iff firstShownAlike, hmarks]
    exact Bool.false_ne_true
  have htells : secondShownAlike.Tells requestBeside .apiCall := by
    rw [hother.tells_iff, ← Python.isSome_find?_marks_iff secondShownAlike]
    cbv
  have hpython : ∀ other ∈ repositoryFiles requestBeside ["repo"] {},
      other.path = firstShownAlike.path → other.language = .python := fun other h hpath =>
    (language_eq_of_path_eq h hfirst hpath).trans hlanguage
  have hmarked : (repositoryReport requestBeside {} ["repo"]).MarkedByFiles requestBeside
      (repositoryFiles requestBeside ["repo"] {}) firstShownAlike .apiCall :=
    markedByFiles_finish hpython (by decide) rfl
  exact ⟨hroot, by decide, hfirst, hreads, hnone, _, analyze_eq_ok hroot rfl,
    hmarked.marked_iff.mpr ⟨_, hsecond, path_secondShownAlike, htells⟩⟩

end Cartograph
