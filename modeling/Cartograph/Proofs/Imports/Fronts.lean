import Cartograph.Proofs.Imports.Placing

/-!
# The longest front of a dotted path

An import is looked for from its longest front on. So of its fronts the longest that is the dotted
path of a file, or the end of one, tells where it leads: to the first file whose dotted path it is,
or if there is none to the first file whose dotted path ends in it. An end of a whole path counts
more in this way than a shorter front that is a whole path itself. Main statement: this is the
answer to every import, and there is no answer exactly when no front names a file
(`longest_front_answers`).
-/

namespace Cartograph.Dotted

/-! ## What components mean -/

/-- The components are all of the dotted path of some file, or the path ends in them. -/
def Names (files : List SourceFile) (parts : List String) : Prop :=
  ∃ file ∈ files, modulePath file.path = Text.joinText '.' parts ∨
    parts <:+ Text.splitText '.' (modulePath file.path)

/-- The file that the components mean: the first one of whose dotted path they are all, or if there
is none the first one whose dotted path ends in them. -/
def Means (files : List SourceFile) (parts : List String) (file : SourceFile) : Prop :=
  FirstWith (fun f => modulePath f.path = Text.joinText '.' parts) files file ∨
    (∀ f ∈ files, modulePath f.path ≠ Text.joinText '.' parts) ∧
      FirstWith (fun f => parts <:+ Text.splitText '.' (modulePath f.path)) files file

/-- The longest front of the components that names a file has `k` of them. -/
structure IsLongest (files : List SourceFile) (parts : List String) (k : Nat) : Prop where
  pos : 1 ≤ k
  le : k ≤ parts.length
  names : Names files (parts.take k)
  longest : ∀ j, k < j → j ≤ parts.length → ¬ Names files (parts.take j)

/-- The answer to an import is the file that the longest front of its components means. -/
structure AnswersByLongest (files : List SourceFile) (module : String) (answer : Option String) :
    Prop where
  some_iff : ∀ id, answer = some id ↔ ∃ k, IsLongest files (Text.splitText '.' module) k ∧
    ∃ file, Means files ((Text.splitText '.' module).take k) file ∧ file.id = id
  none_iff : answer = none ↔ ∀ k, 1 ≤ k → k ≤ (Text.splitText '.' module).length →
    ¬ Names files ((Text.splitText '.' module).take k)

section

variable {files : List SourceFile} {parts : List String}

/-- The search through the files finds what the components mean. -/
theorem meant?_joinText (hne : parts ≠ []) (hdots : ∀ part ∈ parts, '.' ∉ part.toList)
    {file : SourceFile} :
    meant? files (Text.joinText '.' parts) = some file ↔ Means files parts file := by
  have hwhole : ∀ f : SourceFile, (modulePath f.path == Text.joinText '.' parts) = true ↔
      modulePath f.path = Text.joinText '.' parts := fun f => beq_iff_eq
  have hend : ∀ f : SourceFile,
      (suffixes (modulePath f.path)).contains (Text.joinText '.' parts) = true ↔
        parts <:+ Text.splitText '.' (modulePath f.path) := fun f =>
    List.contains_iff_mem.trans (joinText_mem_suffixes_iff hne hdots _)
  rw [meant?, Means, ← find?_eq_some_iff_firstWith hwhole, ← find?_eq_some_iff_firstWith hend]
  cases hfind : files.find? fun f => modulePath f.path == Text.joinText '.' parts with
  | some found =>
      have hfound : ¬ ∀ f ∈ files, modulePath f.path ≠ Text.joinText '.' parts := fun hnone =>
        hnone found (List.mem_of_find?_eq_some hfind) (by simpa using List.find?_some hfind)
      exact (or_iff_left fun h => hfound h.1).symm
  | none =>
      have hnone : ∀ f ∈ files, modulePath f.path ≠ Text.joinText '.' parts := by
        simpa using hfind
      rw [or_iff_right (Option.some_ne_none file).symm, and_iff_right hnone]

/-- The index answers with the file that the components mean. -/
theorem find?_joinText (hne : parts ≠ []) (hdots : ∀ part ∈ parts, '.' ∉ part.toList)
    {id : String} : (Index.ofFiles files).find? (Text.joinText '.' parts) = some id ↔
      ∃ file, Means files parts file ∧ file.id = id := by
  rw [find?_ofFiles, Option.map_eq_some_iff]
  simp only [meant?_joinText hne hdots]

/-- The index has no answer exactly when the components name no file. -/
theorem find?_joinText_eq_none (hne : parts ≠ []) (hdots : ∀ part ∈ parts, '.' ∉ part.toList) :
    (Index.ofFiles files).find? (Text.joinText '.' parts) = none ↔ ¬ Names files parts := by
  rw [← Option.not_isSome_iff_eq_none, isSome_find?_iff, Names]
  simp only [joinText_mem_suffixes_iff hne hdots]

end

/-! ## Searching the fronts -/

theorem mem_fronts {parts front : List String} :
    front ∈ fronts parts ↔ ∃ k, 1 ≤ k ∧ k ≤ parts.length ∧ front = parts.take k := by
  rw [fronts, List.mem_map]
  constructor
  · rintro ⟨n, hn, rfl⟩
    rw [List.mem_reverse, List.mem_range] at hn
    exact ⟨n + 1, by omega, hn, rfl⟩
  · rintro ⟨k, hpos, hle, rfl⟩
    refine ⟨k - 1, ?_, by rw [Nat.sub_add_cancel hpos]⟩
    rw [List.mem_reverse, List.mem_range]
    omega

/-- **A search through the fronts** stops at the longest that has an answer. -/
theorem findSome?_fronts_eq_some_iff {β : Type} {f : List String → Option β} {parts : List String}
    {b : β} : (fronts parts).findSome? f = some b ↔
      ∃ k, (1 ≤ k ∧ k ≤ parts.length) ∧ f (parts.take k) = some b ∧
        ∀ j, k < j → j ≤ parts.length → f (parts.take j) = none := by
  rw [fronts]
  -- the induction is on how many components a front may have; the list itself stays the same
  generalize parts.length = n
  induction n with
  | zero =>
      rw [List.range_zero, List.reverse_nil, List.map_nil, List.findSome?_nil]
      refine iff_of_false (Option.some_ne_none b).symm ?_
      rintro ⟨k, ⟨hone, hzero⟩, -⟩
      omega
  | succ n ih =>
      rw [List.range_succ, List.reverse_concat, List.map_cons, List.findSome?_cons]
      cases hlast : f (parts.take (n + 1)) with
      | some c =>
          constructor
          · intro heq
            refine ⟨n + 1, ⟨by omega, le_rfl⟩, hlast.trans heq, fun j hj hjn => ?_⟩
            omega
          · rintro ⟨k, ⟨hone, hk⟩, hfound, hlonger⟩
            rcases Nat.lt_or_ge k (n + 1) with hlt | hge
            · have hnone := hlonger (n + 1) hlt le_rfl
              rw [hlast] at hnone
              cases hnone
            · obtain rfl : k = n + 1 := by omega
              rw [← hlast, hfound]
      | none =>
          rw [ih]
          constructor
          · rintro ⟨k, ⟨hone, hk⟩, hfound, hlonger⟩
            refine ⟨k, ⟨hone, by omega⟩, hfound, fun j hj hjn => ?_⟩
            rcases Nat.lt_or_ge n j with hlt | hle
            · obtain rfl : j = n + 1 := by omega
              exact hlast
            · exact hlonger j hj hle
          · rintro ⟨k, ⟨hone, hk⟩, hfound, hlonger⟩
            have hne : k ≠ n + 1 := by
              rintro rfl
              rw [hlast] at hfound
              cases hfound
            exact ⟨k, ⟨hone, by omega⟩, hfound, fun j hj hjn => hlonger j hj (by omega)⟩

/-! ## Imports -/

section

variable {files : List SourceFile} {source module : String} {k : Nat}

theorem take_splitText_ne_nil (hk : 1 ≤ k) : (Text.splitText '.' module).take k ≠ [] := by
  intro h
  rcases List.take_eq_nil_iff.mp h with hzero | hnil
  · omega
  · exact Text.splitText_ne_nil '.' module hnil

theorem not_mem_dot_of_mem_take {part : String} (h : part ∈ (Text.splitText '.' module).take k) :
    '.' ∉ part.toList :=
  Text.not_mem_of_mem_splitText (List.mem_of_mem_take h)

/-- A front is answered with the file that its components mean. -/
theorem find?_front_eq_some_iff (hk : 1 ≤ k) {id : String} :
    (Index.ofFiles files).find? (Text.joinText '.' ((Text.splitText '.' module).take k)) = some id ↔
      ∃ file, Means files ((Text.splitText '.' module).take k) file ∧ file.id = id :=
  find?_joinText (take_splitText_ne_nil hk) fun _ => not_mem_dot_of_mem_take

theorem find?_front_eq_none_iff (hk : 1 ≤ k) :
    (Index.ofFiles files).find? (Text.joinText '.' ((Text.splitText '.' module).take k)) = none ↔
      ¬ Names files ((Text.splitText '.' module).take k) :=
  find?_joinText_eq_none (take_splitText_ne_nil hk) fun _ => not_mem_dot_of_mem_take

theorem resolve_eq_findSome?_fronts : (resolver files).resolve source module
    = (fronts (Text.splitText '.' module)).findSome?
        ((Index.ofFiles files).find? ∘ Text.joinText '.') := by
  rw [resolve_resolver, Index.resolve, prefixes, List.findSome?_map]

theorem resolve_eq_some_iff {id : String} : (resolver files).resolve source module = some id ↔
    ∃ k, IsLongest files (Text.splitText '.' module) k ∧
      ∃ file, Means files ((Text.splitText '.' module).take k) file ∧ file.id = id := by
  rw [resolve_eq_findSome?_fronts, findSome?_fronts_eq_some_iff]
  refine exists_congr fun k => ?_
  constructor
  · rintro ⟨⟨hpos, hle⟩, hfound, hlonger⟩
    have hnames : Names files ((Text.splitText '.' module).take k) := by
      by_contra h
      have hnone := (find?_front_eq_none_iff hpos).mpr h
      exact Option.some_ne_none id (hfound.symm.trans hnone)
    refine ⟨⟨hpos, hle, hnames, fun j hj hjn => ?_⟩, (find?_front_eq_some_iff hpos).mp hfound⟩
    exact (find?_front_eq_none_iff (by omega)).mp (hlonger j hj hjn)
  · rintro ⟨⟨hpos, hle, -, hlongest⟩, hmeans⟩
    refine ⟨⟨hpos, hle⟩, (find?_front_eq_some_iff hpos).mpr hmeans, fun j hj hjn => ?_⟩
    exact (find?_front_eq_none_iff (by omega)).mpr (hlongest j hj hjn)

theorem resolve_eq_none_iff : (resolver files).resolve source module = none ↔
    ∀ k, 1 ≤ k → k ≤ (Text.splitText '.' module).length →
      ¬ Names files ((Text.splitText '.' module).take k) := by
  rw [resolve_eq_findSome?_fronts, List.findSome?_eq_none_iff]
  constructor
  · intro h k hpos hle
    exact (find?_front_eq_none_iff hpos).mp (h _ (mem_fronts.mpr ⟨k, hpos, hle, rfl⟩))
  · intro h front hfront
    obtain ⟨k, hpos, hle, rfl⟩ := mem_fronts.mp hfront
    exact (find?_front_eq_none_iff hpos).mpr (h k hpos hle)

end

/-- **The only file of a resolver** is meant by an import exactly when its dotted path ends in some
of the components that the import begins with. -/
theorem resolve_singleton_iff {file : SourceFile} {source module : String} :
    (resolver [file]).resolve source module = some file.id ↔
      ∃ front, front ≠ [] ∧ front <+: Text.splitText '.' module ∧
        front <:+ Text.splitText '.' (modulePath file.path) := by
  rw [Resolver.BuiltFrom.dotted.resolve_singleton_iff, resolve_resolver, isSome_resolve_iff]
  simp only [List.mem_singleton, exists_eq_left, prefixes, List.mem_map, exists_exists_and_eq_and]
  refine exists_congr fun front => ?_
  constructor
  · rintro ⟨hfront, hmeant⟩
    obtain ⟨k, hpos, hle, rfl⟩ := mem_fronts.mp hfront
    refine ⟨take_splitText_ne_nil hpos, List.take_prefix _ _, ?_⟩
    rcases hmeant with heq | hmem
    · rw [heq, Text.splitText_joinText (take_splitText_ne_nil hpos) fun _ => not_mem_dot_of_mem_take]
    · exact (joinText_mem_suffixes_iff (take_splitText_ne_nil hpos)
        (fun _ => not_mem_dot_of_mem_take) _).mp hmem
  · rintro ⟨hne, hbegin, hend⟩
    refine ⟨mem_fronts.mpr ⟨front.length, List.length_pos_iff.mpr hne, hbegin.length_le,
      List.prefix_iff_eq_take.mp hbegin⟩, Or.inr ((joinText_mem_suffixes_iff hne ?_ _).mpr hend)⟩
    exact fun _ hpart => Text.not_mem_of_mem_splitText (hbegin.subset hpart)

/-- **An import means the file of its longest front.** Whatever files a resolver is built from, its
answer to every import is the file that is meant by the longest front which names any. -/
theorem longest_front_answers (files : List SourceFile) (source module : String) :
    AnswersByLongest files module ((resolver files).resolve source module) where
  some_iff _ := resolve_eq_some_iff
  none_iff := resolve_eq_none_iff

end Cartograph.Dotted
