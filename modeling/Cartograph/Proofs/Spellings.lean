import Cartograph.Proofs.FileTree.Spelling
import Cartograph.Proofs.Pipeline
import Mathlib

/-!
# Spellings of a directory

However the directory of a repository is spelled, its files are looked for below its real path. Main
statement: a repository has the same report under all its spellings whose real path is found
(`spelled_alike`). For some it is not, since a place on the way may have an absolute path that is
too long (`spelled_apart`).
-/

namespace Cartograph

open FileTree (Spells WithinLimits pathParts)

section

variable {host : Host} {tree : FileTree} {here there root : Place} {path other : RawText}

/-- Which repository a path leads to depends on its directory only, if its real path is found. -/
theorem repositoryAt_of_spells (h : Spells tree here path root) {place : Place}
    (hreal : tree.realPath here path = .ok place) :
    repositoryAt tree here path =
      if tree.isDirectoryAt [] (locationOf root) then .ok root
      else .error (.notDirectory (locationOf root)) := by
  obtain rfl := h.eq_of_realPath hreal
  exact repositoryAt_of_realPath (FileTree.isDirectoryAt_iff_spells.mpr ⟨_, h⟩) hreal

/-- The name of a repository is that of its directory, if its real path is found. -/
theorem repositoryName_of_spells (h : Spells tree here path root) {place : Place}
    (hreal : tree.realPath here path = .ok place) :
    repositoryName tree here path = root.getLast?.map RawText.shown := by
  obtain rfl := h.eq_of_realPath hreal
  rw [repositoryName, hreal]

/-- A report has the name of the repository. -/
theorem repository_of_analyze {settings : Settings} {report : Report}
    (h : analyze host tree settings here path = .ok report) :
    report.repository = repositoryName tree here path := by
  cases hroot : repositoryAt tree here path with
  | error error =>
      rw [analyze_eq_error_of_repositoryAt hroot] at h
      cases h
  | ok root =>
      cases hpool : host.pool settings.extraction.workers with
      | error error =>
          rw [analyze_of_pool_eq_error hroot hpool] at h
          cases h
      | ok _ =>
          rw [analyze_eq_ok hroot hpool] at h
          rw [← Except.ok.inj h, repositoryName_eq hroot]
          rfl

/-- A directory without a real path has no report. -/
theorem analyze_of_realPath_eq_error (hdirectory : tree.isDirectoryAt here path = true)
    {cause : FileError} (hreal : tree.realPath here path = .error cause) (settings : Settings) :
    analyze host tree settings here path = .error (.io path cause) :=
  analyze_eq_error_of_repositoryAt (repositoryAt_of_realPath_eq_error hdirectory hreal) settings

/-- **A repository has one report, however it is spelled**: two paths that lead to one directory and
whose real paths are found, even seen from different places, give the same report, and it has the
name of the directory. There is a report unless a limit of the file system or the want of workers
stands in its way. -/
theorem spelled_alike (hpath : Spells tree here path root) (hother : Spells tree there other root)
    (hreal : ∃ place, tree.realPath here path = .ok place)
    (hrealOther : ∃ place, tree.realPath there other = .ok place) (settings : Settings) :
    analyze host tree settings here path = analyze host tree settings there other ∧
      (∀ report, analyze host tree settings here path = .ok report →
        report.repository = root.getLast?.map RawText.shown) ∧
      (tree.WellNamed → WithinLimits root → host.pool settings.extraction.workers = .ok () →
        ∃ report, analyze host tree settings here path = .ok report) := by
  obtain ⟨place, hplace⟩ := hreal
  obtain ⟨otherPlace, hotherPlace⟩ := hrealOther
  have hrepository := repositoryAt_of_spells hpath hplace
  have hname := repositoryName_of_spells hpath hplace
  refine ⟨?_, fun report hreport => (repository_of_analyze hreport).trans hname,
    fun hnamed hlimits hpool => ?_⟩
  · rw [analyze, analyze, hrepository, hname, repositoryAt_of_spells hother hotherPlace,
      repositoryName_of_spells hother hotherPlace]
  · have hlocation : tree.isDirectoryAt [] (locationOf root) = true :=
      FileTree.isDirectoryAt_iff_spells.mpr
        ⟨root, FileTree.spells_locationOf hnamed hlimits hpath.directory []⟩
    rw [hlocation, if_pos rfl] at hrepository
    exact ⟨_, analyze_eq_ok hrepository hpool⟩

end

/-! ## Over a link -/

/-- A repository and, in another directory, a link to it. -/
def linkedRepository : FileTree :=
  .directory
    [("home", .directory [("here", .link "../repo")]),
      ("repo", .directory [("a.py", .file (Text.Utf8.encode "x = 1\n")), ("src", .directory [])])]

/-- The repository is spelled by its absolute path and, seen from the other directory, over the link
with a detour behind it. -/
theorem spelled_alike_overLink :
    Spells linkedRepository [] "/repo" ["repo"] ∧
      Spells linkedRepository ["home"] "here/.//src/../" ["repo"] ∧
      ∃ report, analyze {} linkedRepository {} [] "/repo" = .ok report ∧
        analyze {} linkedRepository {} ["home"] "here/.//src/../" = .ok report ∧
        report.repository = some "repo" := by
  have hroot : ∃ entries, linkedRepository.get? ["repo"] = some (.directory entries) := ⟨_, rfl⟩
  have hlimits : WithinLimits ["repo"] := ⟨by decide, by decide⟩
  have hpath : Spells linkedRepository [] "/repo" ["repo"] := by
    have hlocation : locationOf ["repo"] = "/repo" := by decide
    rw [← hlocation]
    exact FileTree.spells_locationOf (by decide) hlimits hroot []
  have htarget : pathParts "../repo" = (["..", "repo"] : List RawText) := by decide
  have hfollowed : FileTree.Leads linkedRepository 1 ["home"] ["here"] ["repo"] := by
    refine .follow rfl (by decide) rfl ?_
    rw [htarget]
    exact .up rfl (.down rfl (by decide) rfl (fun _ => FileTree.noConfusion) .done)
  have hlink : Spells linkedRepository ["home"] "here" ["repo"] :=
    ⟨by decide, by decide, ⟨1, by decide, hfollowed⟩, hroot⟩
  have hparts : pathParts ".//src/../" = ([".", "", "src", "..", ""] : List RawText) := by decide
  have hdetour : FileTree.Leads linkedRepository 0 ["repo"] (pathParts ".//src/../") ["repo"] := by
    rw [hparts]
    exact .stay rfl (.inr rfl) (.stay rfl (.inl rfl)
      (.down rfl (by decide) rfl (fun _ => FileTree.noConfusion)
        (.up rfl (.stay rfl (.inl rfl) .done))))
  have hother : Spells linkedRepository ["home"] "here/.//src/../" ["repo"] :=
    hlink.detour hdetour (by decide)
  obtain ⟨hsame, hname, hreport⟩ := @spelled_alike {} linkedRepository [] ["home"] ["repo"]
    "/repo" "here/.//src/../" hpath hother ⟨["repo"], by cbv⟩ ⟨["repo"], by cbv⟩ {}
  obtain ⟨report, hanalyzed⟩ := hreport (by decide) hlimits rfl
  exact ⟨hpath, hother, report, hanalyzed, hsame ▸ hanalyzed,
    (hname report hanalyzed).trans (congrArg some (RawText.shown_ofText "repo"))⟩

/-! ## Too far away -/

/-- So many directories inside each other. -/
def nested : Nat → FileTree
  | 0 => .directory []
  | n + 1 => .directory [("src", nested n)]

/-- The place inside so many of these directories. -/
def inside (n : Nat) : Place :=
  List.replicate n "src"

theorem get?_nested (m n : Nat) : (nested (m + n)).get? (inside m) = some (nested n) := by
  induction m with
  | zero =>
      rw [Nat.zero_add]
      rfl
  | succ m ih =>
      rw [Nat.succ_add, inside, List.replicate_succ, nested, FileTree.get?, FileTree.child?,
        if_pos rfl]
      exact ih

theorem wellNamed_nested (n : Nat) : (nested n).WellNamed := by
  induction n with
  | zero => decide
  | succ n ih =>
      rw [nested, FileTree.WellNamed]
      exact ⟨List.nodup_singleton _, by decide, ih, trivial⟩

theorem inside_append (n : Nat) : inside n ++ [("src" : RawText)] = inside (n + 1) :=
  List.replicate_succ'.symm

/-- The last directory but one has an absolute path that is as long as such paths may be. -/
theorem withinLimits_inside : WithinLimits (inside 1023) := by
  refine ⟨fun name hname => ?_, by decide +kernel⟩
  rw [List.eq_of_mem_replicate hname]
  decide

/-- The absolute path of the last directory is too long. -/
theorem hasShortPath_last :
    FileTree.hasShortPath (inside 1023 ++ [("src" : RawText)]) = false := by
  decide +kernel

theorem get?_inside : (nested 1024).get? (inside 1023) = some (.directory [("src", nested 0)]) :=
  get?_nested 1023 1

theorem pathParts_back : pathParts "src/.." = (["src", ".."] : List RawText) := by
  decide

/-- The path into the last directory and back leads to where it begins. -/
theorem spells_back : Spells (nested 1024) (inside 1023) "src/.." (inside 1023) := by
  refine ⟨by decide, by decide, ⟨0, Nat.zero_le _, ?_⟩, _, get?_inside⟩
  have hstart : FileTree.startOf (inside 1023) "src/.." = inside 1023 := rfl
  have hlast : (nested 1024).get? (inside 1024) = some (.directory []) := get?_nested 1024 0
  have hback : (inside 1024).dropLast = inside 1023 := by
    rw [← inside_append, List.dropLast_concat]
  rw [hstart, pathParts_back]
  refine .down get?_inside (by decide) (if_pos rfl) (fun _ => FileTree.noConfusion) ?_
  rw [inside_append]
  refine .up hlast ?_
  rw [hback]
  exact .done

/-- No real path is found on the way through the last directory. -/
theorem realPath_back : (nested 1024).realPath (inside 1023) "src/.." = .error .nameTooLong := by
  have hname : ¬ (("src" : RawText) = "" ∨ ("src" : RawText) = ".") := by decide
  have hup : ¬ ("src" : RawText) = ".." := by decide
  have hlocate : (nested 1024).locateFrom FileTree.hasShortPath FileTree.linkLimit (inside 1023)
      ["src", ".."] = .error .nameTooLong := by
    rw [FileTree.locateFrom, get?_inside]
    simp only [Option.bind_some, FileTree.entries?, if_neg hname, if_neg hup,
      hasShortPath_last, or_true, if_true]
  have hstart : FileTree.startOf (inside 1023) "src/.." = inside 1023 := rfl
  have hsome : ("src/.." : RawText).isEmpty = false := rfl
  rw [FileTree.realPath, hsome, hstart, pathParts_back, hlocate]
  rfl

theorem spells_stay : Spells (nested 1024) (inside 1023) "." (inside 1023) :=
  ⟨by decide, by decide, ⟨0, Nat.zero_le _, .stay get?_inside (.inr rfl) .done⟩, _, get?_inside⟩

theorem realPath_stay : (nested 1024).realPath (inside 1023) "." = .ok (inside 1023) := by
  have hparts : pathParts "." = (["."] : List RawText) := by decide
  have hlocate : (nested 1024).locateFrom FileTree.hasShortPath FileTree.linkLimit (inside 1023)
      ["."] = .ok (inside 1023) := by
    rw [FileTree.locateFrom, get?_inside]
    simp only [Option.bind_some, FileTree.entries?, or_true, if_true]
    rw [FileTree.locateFrom]
  exact FileTree.realPath_eq_ok_iff.mpr ⟨rfl, hparts ▸ hlocate, _, get?_inside⟩

/-- **A spelling may have no real path**: two paths lead to one directory, and with the second it
has no report, since the absolute path of a place on its way is too long. -/
theorem spelled_apart :
    Spells (nested 1024) (inside 1023) "." (inside 1023) ∧
      Spells (nested 1024) (inside 1023) "src/.." (inside 1023) ∧
      (∃ report, analyze {} (nested 1024) {} (inside 1023) "." = .ok report) ∧
      analyze {} (nested 1024) {} (inside 1023) "src/.." = .error (.io "src/.." .nameTooLong) := by
  have hroot : repositoryAt (nested 1024) (inside 1023) "." = .ok (inside 1023) := by
    have hlocation : (nested 1024).isDirectoryAt [] (locationOf (inside 1023)) = true :=
      FileTree.isDirectoryAt_iff_spells.mpr ⟨inside 1023, FileTree.spells_locationOf
        (wellNamed_nested 1024) withinLimits_inside ⟨_, get?_inside⟩ []⟩
    rw [repositoryAt_of_spells spells_stay realPath_stay, hlocation, if_pos rfl]
  exact ⟨spells_stay, spells_back, ⟨_, analyze_eq_ok hroot rfl⟩,
    analyze_of_realPath_eq_error (FileTree.isDirectoryAt_iff_spells.mpr ⟨_, spells_back⟩)
      realPath_back {}⟩

end Cartograph
