import Cartograph.Analysis

/-!
# What is found in a repository

Every file that an analysis looks at is at a place below the root of its repository
(`exists_at_of_mem_discover`), and without an ignore file nothing is ignored
(`ignoredIn_of_missing`). A path of plain names is read where its names lead
(`FileTree.readBytes_eq_ok`).
-/

namespace Cartograph

/-! ## Places of files -/

/-- Every file that is found is at a place below the root. -/
theorem exists_at_of_mem_discover {tree : FileTree} {root : Place} {settings : DiscoverySettings}
    {ignored : Ignored} {file : SourceFile} (h : file ∈ discover tree root settings ignored) :
    ∃ names, file = SourceFile.at root names := by
  unfold discover at h
  split at h
  · obtain ⟨entry, -, rfl⟩ := List.mem_map.mp (List.mem_filter.mp h).1
    exact ⟨entry.1, rfl⟩
  · cases h

/-! ## Plain places -/

namespace FileTree

theorem get?_append (a b : Place) (tree : FileTree) :
    tree.get? (a ++ b) = (tree.get? a).bind (get? b) := by
  induction a generalizing tree with
  | nil => rfl
  | cons name rest ih =>
      cases tree with
      | directory entries =>
          rw [List.cons_append, get?, get?]
          cases child? name entries with
          | none => rfl
          | some below => exact ih below
      | file bytes => rfl
      | link target => rfl

/-- A path leads to what stands at the place where it leads. -/
theorem resolve_eq_ok_iff {tree found : FileTree} {here place : Place}
    {path : RawText} :
    tree.resolve here path = .ok (place, found) ↔
      tree.locate here path = .ok place ∧ tree.get? place = some found := by
  rw [resolve]
  cases tree.locate here path with
  | error e => simp [bind, Except.bind]
  | ok there =>
      simp only [bind, Except.bind, Except.ok.injEq]
      constructor
      · intro h
        split at h
        · rename_i other hother
          obtain ⟨rfl, rfl⟩ := Prod.mk.inj (Except.ok.inj h)
          exact ⟨rfl, hother⟩
        · cases h
      · rintro ⟨rfl, hfound⟩
        rw [hfound]
        rfl

/-- A name that leads one step down. -/
structure Plain (name : RawText) : Prop where
  ne_empty : name ≠ ""
  ne_dot : name ≠ "."
  ne_dots : name ≠ ".."
  size_le : name.size ≤ nameLimit

instance (name : RawText) : Decidable (Plain name) :=
  decidable_of_iff (name ≠ "" ∧ name ≠ "." ∧ name ≠ ".." ∧ name.size ≤ nameLimit)
    ⟨fun h => ⟨h.1, h.2.1, h.2.2.1, h.2.2.2⟩,
      fun h => ⟨h.ne_empty, h.ne_dot, h.ne_dots, h.size_le⟩⟩

/-- Plain names lead to what stands at their place, unless that is a link, where all places on the
way are within reach. -/
theorem locateFrom_eq_ok {tree : FileTree} {reaches : Place → Bool} (links : Nat) {names : Place}
    (hplain : ∀ name ∈ names, Plain name) {here : Place} {found : FileTree}
    (hreach : ∀ front, front <+: names → reaches (here ++ front) = true)
    (hfound : tree.get? (here ++ names) = some found) (hlink : ∀ target, found ≠ .link target) :
    tree.locateFrom reaches links here names = .ok (here ++ names) := by
  induction names generalizing here with
  | nil => rw [locateFrom, List.append_nil]
  | cons name rest ih =>
      obtain ⟨start, hstart, hbelow⟩ : ∃ start, tree.get? here = some start ∧
          start.get? (name :: rest) = some found := by
        rw [get?_append, Option.bind_eq_some_iff] at hfound
        exact hfound
      cases start with
      | file bytes => cases hbelow
      | link target => cases hbelow
      | directory entries =>
          have hentries : (tree.get? here).bind entries? = some entries := by
            rw [hstart]
            rfl
          have hname : Plain name := hplain name List.mem_cons_self
          have hnext : here ++ name :: rest = here ++ [name] ++ rest :=
            List.append_cons here name rest
          have hinside : reaches (here ++ [name]) = true :=
            hreach [name] (List.cons_prefix_cons.mpr ⟨rfl, List.nil_prefix⟩)
          have hrest : tree.locateFrom reaches links (here ++ [name]) rest
              = .ok (here ++ name :: rest) := by
            rw [hnext] at hfound ⊢
            refine ih (fun n hn => hplain n (List.mem_cons_of_mem _ hn)) (fun front hfront => ?_)
              hfound
            rw [List.append_assoc, List.singleton_append]
            exact hreach (name :: front) (List.cons_prefix_cons.mpr ⟨rfl, hfront⟩)
          rw [get?] at hbelow
          rw [locateFrom, hentries]
          simp only [hname.ne_empty, hname.ne_dot, hname.ne_dots, or_self, if_false,
            Nat.not_lt.mpr hname.size_le, hinside, Bool.true_eq_false]
          cases hchild : child? name entries with
          | none =>
              rw [hchild] at hbelow
              cases hbelow
          | some next =>
              rw [hchild] at hbelow
              cases next with
              | file bytes => exact hrest
              | directory below => exact hrest
              | link target =>
                  -- a link would have to be the last on the way, and so be what was found
                  cases rest with
                  | nil => exact absurd (Option.some.inj hbelow).symm (hlink target)
                  | cons deeper _ => cases hbelow

theorem ne_empty_of_isAbsolute {path : RawText} (h : FilePath.isAbsolute path = true) :
    path.isEmpty = false := by
  obtain ⟨bytes⟩ := path
  cases bytes with
  | nil => cases h
  | cons b rest => rfl

/-- **A file is read at its path** if the names on the way are plain. -/
theorem readBytes_eq_ok {tree : FileTree} {path : RawText} {place : Place} {bytes : List UInt8}
    (habsolute : FilePath.isAbsolute path = true)
    (hparts : pathParts path = ("" : RawText) :: place) (hsize : path.size < pathLimit)
    (hplain : ∀ name ∈ place, Plain name)
    (hplace : place ≠ []) (hbytes : tree.get? place = some (.file bytes)) (here : Place) :
    tree.readBytes here path = .ok bytes := by
  obtain ⟨entries, hentries⟩ : ∃ entries, (tree.get? []).bind entries? = some entries := by
    cases tree with
    | directory entries => exact ⟨entries, rfl⟩
    | file _ => cases place with
      | nil => exact absurd rfl hplace
      | cons name rest => cases hbytes
    | link _ => cases place with
      | nil => exact absurd rfl hplace
      | cons name rest => cases hbytes
  have hlocate : tree.locate here path = .ok place := by
    rw [locate, ne_empty_of_isAbsolute habsolute, if_neg Bool.false_ne_true,
      if_neg (Nat.not_le.mpr hsize), startOf, habsolute, if_pos rfl, hparts, locateFrom, hentries]
    simp only [true_or, if_true]
    exact locateFrom_eq_ok linkLimit hplain (fun _ _ => rfl) hbytes
      (fun _ => FileTree.noConfusion)
  rw [readBytes, resolve, hlocate]
  simp only [bind, Except.bind, hbytes]
  rfl

/-! ## Real paths -/

/-- What is found within reach is found without a bound on the way. -/
theorem locateFrom_anywhere {tree : FileTree} {reaches : Place → Bool} {links : Nat}
    {here place : Place} {parts : List RawText}
    (h : tree.locateFrom reaches links here parts = .ok place) :
    tree.locateFrom anywhere links here parts = .ok place := by
  have hshort {here : Place} {part : RawText}
      (hlong : ¬ (nameLimit < part.size ∨ reaches (here ++ [part]) = false)) :
      ¬ (nameLimit < part.size ∨ anywhere (here ++ [part]) = false) :=
    fun h => hlong (h.imp_right Bool.noConfusion)
  fun_induction locateFrom tree reaches links here parts with
  | case1 => rwa [locateFrom]
  | case3 links here part rest entries hentries hstay ih =>
      rw [locateFrom, hentries]
      simp only [if_pos hstay, ih h]
  | case4 links here rest entries hentries hstay ih =>
      rw [locateFrom, hentries]
      simp only [if_neg hstay, if_true, ih h]
  | case7 here part rest entries hentries hstay hup hlong target hchild links ih =>
      rw [locateFrom, hentries]
      simp only [if_neg hstay, if_neg hup, if_neg (hshort hlong), hchild, ih h]
  | case8 links here part rest entries hentries hstay hup hlong below hlink hchild ih =>
      rw [locateFrom, hentries]
      simp only [if_neg hstay, if_neg hup, if_neg (hshort hlong), hchild]
      cases below with
      | link target => exact absurd rfl (hlink target)
      | file bytes => exact ih h
      | directory entries => exact ih h
  | case9 links here part entries hentries hstay hup hlong hchild =>
      rw [locateFrom, hentries]
      simp only [if_neg hstay, if_neg hup, if_neg (hshort hlong), hchild]
      exact h
  | _ => cases h

theorem isDirectoryAt_iff {tree : FileTree} {here : Place} {path : RawText} :
    tree.isDirectoryAt here path = true ↔ ∃ place entries,
      tree.locate here path = .ok place ∧ tree.get? place = some (.directory entries) := by
  rw [isDirectoryAt]
  cases hresolve : tree.resolve here path with
  | error cause =>
      refine iff_of_false Bool.false_ne_true ?_
      rintro ⟨place, entries, hplace⟩
      rw [resolve_eq_ok_iff.mpr hplace] at hresolve
      cases hresolve
  | ok found =>
      obtain ⟨place, leaf⟩ := found
      have hplace := resolve_eq_ok_iff.mp hresolve
      constructor
      · intro hleaf
        cases leaf with
        | directory entries => exact ⟨place, entries, hplace⟩
        | file bytes => cases hleaf
        | link target => cases hleaf
      · rintro ⟨there, entries, hthere⟩
        rw [resolve_eq_ok_iff.mpr hthere] at hresolve
        cases hresolve
        rfl

theorem realPath_eq_ok_iff {tree : FileTree} {here root : Place} {path : RawText} :
    tree.realPath here path = .ok root ↔ path.isEmpty = false ∧
      tree.locateFrom hasShortPath linkLimit (startOf here path) (pathParts path) = .ok root ∧
        ∃ found, tree.get? root = some found := by
  unfold realPath
  cases path.isEmpty with
  | true => simp [bind, Except.bind, throw, throwThe, MonadExceptOf.throw]
  | false =>
      cases tree.locateFrom hasShortPath linkLimit (startOf here path) (pathParts path) with
      | error cause => simp [bind, Except.bind]
      | ok place =>
          simp only [bind, Except.bind, Bool.false_eq_true, if_false, true_and, Except.ok.injEq]
          cases hfound : tree.get? place with
          | none =>
              refine iff_of_false (by simp [throw, throwThe, MonadExceptOf.throw]) ?_
              rintro ⟨rfl, found, hthere⟩
              rw [hfound] at hthere
              cases hthere
          | some found =>
              refine ⟨fun h => ?_, fun h => congrArg Except.ok h.1⟩
              obtain rfl : place = root := Except.ok.inj h
              exact ⟨rfl, found, hfound⟩

/-- A real path leads where the path leads. -/
theorem locate_of_realPath {tree : FileTree} {here root place : Place} {path : RawText}
    (hreal : tree.realPath here path = .ok root) (hplace : tree.locate here path = .ok place) :
    place = root := by
  obtain ⟨hempty, hwithin, -⟩ := realPath_eq_ok_iff.mp hreal
  rw [locate, hempty, if_neg Bool.false_ne_true] at hplace
  split at hplace
  · cases hplace
  · rw [locateFrom_anywhere hwithin] at hplace
    exact (Except.ok.inj hplace).symm

end FileTree

/-! ## Repositories -/

section

variable {tree : FileTree} {here root : Place} {path : RawText}

/-- A path that leads to no directory leads to no repository. -/
theorem repositoryAt_of_not_directory (h : tree.isDirectoryAt here path = false) :
    repositoryAt tree here path = .error (.notDirectory path) := by
  rw [repositoryAt, h, Bool.not_false, if_pos rfl]

/-- A directory with a real path is looked for once more at that path. -/
theorem repositoryAt_of_realPath (h : tree.isDirectoryAt here path = true) {place : Place}
    (hreal : tree.realPath here path = .ok place) :
    repositoryAt tree here path =
      if tree.isDirectoryAt [] (locationOf place) then .ok place
      else .error (.notDirectory (locationOf place)) := by
  rw [repositoryAt, h, Bool.not_true, if_neg Bool.false_ne_true]
  simp only [hreal]

/-- A directory without a real path is no repository. -/
theorem repositoryAt_of_realPath_eq_error (h : tree.isDirectoryAt here path = true)
    {cause : FileError} (hreal : tree.realPath here path = .error cause) :
    repositoryAt tree here path = .error (.io path cause) := by
  rw [repositoryAt, h, Bool.not_true, if_neg Bool.false_ne_true]
  simp only [hreal]

/-- What it takes for a path to lead to a repository. -/
theorem repositoryAt_eq_ok_iff : repositoryAt tree here path = .ok root ↔
    tree.isDirectoryAt here path = true ∧ tree.realPath here path = .ok root ∧
      tree.isDirectoryAt [] (locationOf root) = true := by
  cases hdirectory : tree.isDirectoryAt here path with
  | false => simp [repositoryAt_of_not_directory hdirectory]
  | true =>
      cases hreal : tree.realPath here path with
      | error cause => simp [repositoryAt_of_realPath_eq_error hdirectory hreal]
      | ok place =>
          rw [repositoryAt_of_realPath hdirectory hreal]
          by_cases hplace : tree.isDirectoryAt [] (locationOf place) = true
          · simp only [hplace, if_true, true_and, Except.ok.injEq, iff_self_and]
            rintro rfl
            exact hplace
          · simp only [hplace, Bool.false_eq_true, if_false, reduceCtorEq, true_and,
              Except.ok.injEq, false_iff, not_and]
            rintro rfl
            exact hplace

/-- A repository is a directory. -/
theorem exists_directory_of_repositoryAt (h : repositoryAt tree here path = .ok root) :
    ∃ entries, tree.get? root = some (.directory entries) := by
  obtain ⟨hdirectory, hreal, -⟩ := repositoryAt_eq_ok_iff.mp h
  obtain ⟨place, entries, hplace, hfound⟩ := FileTree.isDirectoryAt_iff.mp hdirectory
  obtain rfl := FileTree.locate_of_realPath hreal hplace
  exact ⟨entries, hfound⟩

end

/-! ## A repository without rules -/

section

variable {tree : FileTree} {root : Place} {entries : List (RawText × FileTree)}

/-- A name leads to its place in a directory even if nothing is there. -/
theorem FileTree.locate_name_of_missing {name : RawText}
    (hrelative : FilePath.isAbsolute name = false) (hparts : pathParts name = [name])
    (hsize : name.size < pathLimit)
    (hplain : Plain name) (hroot : tree.get? root = some (.directory entries))
    (hmissing : child? name entries = none) : tree.locate root name = .ok (root ++ [name]) := by
  have hname : name.isEmpty = false := by
    rw [Bool.eq_false_iff]
    exact fun hempty => hplain.ne_empty (RawText.isEmpty_iff.mp hempty)
  have hentries : (tree.get? root).bind entries? = some entries := by
    rw [hroot]
    rfl
  rw [locate, hname, if_neg Bool.false_ne_true, if_neg (Nat.not_le.mpr hsize), startOf, hrelative,
    if_neg Bool.false_ne_true, hparts, locateFrom, hentries]
  simp only
  rw [if_neg (not_or.mpr ⟨hplain.ne_empty, hplain.ne_dot⟩), if_neg hplain.ne_dots,
    if_neg (not_or.mpr ⟨Nat.not_lt.mpr hplain.size_le, Bool.noConfusion⟩), hmissing]
  rfl

/-- The name of the ignore file leads to its place, even if nothing is there. -/
theorem locate_of_missing (hroot : tree.get? root = some (.directory entries))
    (hmissing : FileTree.child? ignoreFile entries = none) :
    tree.locate root ignoreFile = .ok (root ++ [(ignoreFile : RawText)]) :=
  FileTree.locate_name_of_missing (by decide) (by decide) (by decide) (by decide) hroot hmissing

/-- Where there is no ignore file none can be read. -/
theorem readBytes_of_missing (hroot : tree.get? root = some (.directory entries))
    (hmissing : FileTree.child? ignoreFile entries = none) :
    tree.readBytes root ignoreFile = .error .missing := by
  have hget : tree.get? (root ++ [(ignoreFile : RawText)]) = none := by
    rw [FileTree.get?_append, hroot, Option.bind_some, FileTree.get?, hmissing]
  have hresolve : tree.resolve root ignoreFile = .error .missing := by
    rw [FileTree.resolve, locate_of_missing hroot hmissing]
    simp only [bind, Except.bind, hget]
    rfl
  rw [FileTree.readBytes, hresolve]

/-- Without an ignore file nothing is ignored. -/
theorem ignoredIn_of_missing (hroot : tree.get? root = some (.directory entries))
    (hmissing : FileTree.child? ignoreFile entries = none) (settings : DiscoverySettings) :
    ignoredIn tree root settings = fun _ _ => false := by
  rw [ignoredIn, ignoreRules?, readBytes_of_missing hroot hmissing]
  split
  · rename_i rules hrules
    split at hrules <;> cases hrules
  · rfl

end

end Cartograph
