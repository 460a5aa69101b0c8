import Cartograph.Proofs.Json.Text
import Cartograph.Proofs.Paths
import Cartograph.Proofs.Spellings
import Cartograph.Service.Basic

/-!
# What a request is answered

A well-formed request for an analysis names the path of a repository. Main statement: the answer
tells what is wrong with the path if, after blanks are taken off its ends, it is empty or leads to
no directory, it tells of a failure if the directory has no real path, and it is the report on that
directory otherwise; a tilde in front of a path leads nowhere but into the home directory
(`boundary_classified`). A directory without a real path is no mistake of the one who asks
(`boundary_unclassified`).
-/

namespace Cartograph

open Text

/-! ## Paths behind a directory -/

namespace FilePath

/-- A separator parts what stands on either side of it. -/
theorem innerParts_append (xs ys : List UInt8) :
    innerParts (xs ++ separator :: ys) = innerParts xs ++ innerParts ys := by
  rw [innerParts, pieces_append, List.filterMap_append]
  rfl

/-- What stands in front of a path is not changed by what stands behind it. -/
theorem front_append {xs : List UInt8} (h : xs ≠ []) (ys : List UInt8) :
    front (pieces separator (xs ++ separator :: ys)) = front (pieces separator xs) := by
  rw [pieces_append]
  cases xs with
  | nil => exact absurd rfl h
  | cons x xs =>
      obtain ⟨next, more, hmore⟩ := List.exists_cons_of_ne_nil (pieces_ne_nil separator xs)
      obtain ⟨other, others, hother⟩ := List.exists_cons_of_ne_nil (pieces_ne_nil separator ys)
      rw [pieces, hother]
      split
      · -- a separator in front stays in front
        rw [hmore]
        rfl
      · rw [hmore]
        rfl

/-- **A relative path behind a directory** adds its own parts to those of the directory. -/
theorem parts_join {base path : RawText} (hbase : base ≠ "") (hpath : isAbsolute path = false) :
    parts (join base path) = parts base ++ innerParts path.bytes := by
  have hempty : base.isEmpty = false := by
    rw [Bool.eq_false_iff]
    exact fun h => hbase (RawText.isEmpty_iff.mp h)
  have hne : base.bytes ≠ [] := fun h => hbase (congrArg RawText.mk h)
  rw [join, hpath, hempty, Bool.or_false, if_neg Bool.false_ne_true]
  split
  · -- the separator at the end of the directory is the one that parts them
    rename_i hends
    obtain ⟨before, hbefore⟩ := List.getLast?_eq_some_iff.mp hends
    have hbytes : (base ++ path).bytes = before ++ separator :: path.bytes := by
      show base.bytes ++ path.bytes = _
      rw [hbefore, List.append_assoc, List.singleton_append]
    have hnothing : innerParts [] = [] := rfl
    rw [parts_eq, parts_eq, hbytes, hbefore, innerParts_append, innerParts_append, hnothing,
      List.append_nil, ← List.append_assoc]
    cases before with
    | nil =>
        obtain ⟨piece, rest, hpieces⟩ :=
          List.exists_cons_of_ne_nil (pieces_ne_nil separator path.bytes)
        rw [List.nil_append, List.nil_append, pieces, if_pos rfl, hpieces]
        rfl
    | cons b before =>
        rw [front_append (List.cons_ne_nil b before), front_append (List.cons_ne_nil b before)]
  · have hbytes : (base ++ "/" ++ path).bytes = base.bytes ++ separator :: path.bytes :=
      List.append_assoc base.bytes [separator] path.bytes
    rw [parts_eq, parts_eq, hbytes, front_append hne, innerParts_append, List.append_assoc]

end FilePath

namespace Service

/-! ## Home directories -/

section

variable {home : RawText}

/-- A path stays what it is unless a tilde that stands alone is its first part. -/
theorem expandHome_of_ne {path : String} (halone : path ≠ "~")
    (hinside : startsWith path "~/" = false) : expandHome (some home) path = path := by
  have hnone : afterTilde? path = none := by
    unfold afterTilde?
    split
    · rename_i hlist
      exact absurd (String.toList_inj.mp hlist) halone
    · rename_i rest hlist
      rw [startsWith, hlist] at hinside
      cases hinside
    · rfl
  unfold expandHome
  rw [hnone]

theorem expandHome_tilde : expandHome (some home) "~" = home := rfl

/-- However many separators follow the tilde, the path goes on from the home directory. -/
theorem expandHome_inside (rest : String) :
    expandHome (some home) ("~/" ++ rest) = home ∨ ∃ inner : RawText,
      expandHome (some home) ("~/" ++ rest) = FilePath.join home inner ∧
        FilePath.isAbsolute inner = false := by
  have hafter : afterTilde? ("~/" ++ rest)
      = some (String.ofList (rest.toList.dropWhile (· = '/'))) := by
    rw [afterTilde?, String.toList_append]
    rfl
  unfold expandHome
  rw [hafter]
  simp only
  split
  · exact .inl rfl
  · refine .inr ⟨_, rfl, Bool.eq_false_iff.mpr fun habsolute => ?_⟩
    -- no separator is left in front, so that joining does not start over at the root
    have hhead := RawText.head?_toList_of_head?_bytes FilePath.separator_lt
      (of_decide_eq_true habsolute)
    rw [String.toList_ofList, FilePath.asciiChar_separator] at hhead
    have hnot := List.head?_dropWhile_not (· = '/') rest.toList
    rw [hhead] at hnot
    exact absurd hnot (by decide)

/-- **No path leaves the home directory by its tilde**: the parts of the directory stand in front of
what the path is expanded to. -/
theorem parts_expandHome_inside (rest : String) :
    FilePath.parts home <+: FilePath.parts (expandHome (some home) ("~/" ++ rest)) := by
  rcases @expandHome_inside home rest with hhome | ⟨inner, hinner, hrelative⟩
  · rw [hhome]
  · rw [hinner]
    by_cases hempty : home = ""
    · subst hempty
      exact List.nil_prefix
    · rw [FilePath.parts_join hempty hrelative]
      exact List.prefix_append _ _

end

/-! ## Well-formed requests -/

/-- The request is well-formed and asks for the repository at a path. -/
structure Request.Poses (request : Request) (path : String) : Prop where
  method : request.method = "POST"
  route : routeOf request.target = analyzePath
  mediaType : request.mediaType.any announcesJson = true
  size : request.body.utf8ByteSize ≤ bodyLimit
  body : readBody request.body.toList = .ok path

theorem Request.Poses.answer_eq {request : Request} {path : String} (h : request.Poses path)
    (site : Site) : answer site request = analyzeRepository site path := by
  have hmethod : ¬ request.method = "OPTIONS" := by
    rw [h.method]
    decide
  rw [answer]
  rw [if_neg hmethod, if_pos h.route, if_pos h.method, answerAnalyze, h.mediaType,
    if_neg (by decide), if_neg (Nat.not_lt.mpr h.size), h.body]

/-- The body that asks for the repository at a path. -/
def bodyFor (path : String) : Json :=
  .obj [(pathKey, .str path)]

/-- The request for the repository at a path. -/
def Request.posing (path : String) : Request where
  method := "POST"
  target := analyzePath
  mediaType := some "application/json"
  body := (bodyFor path).compact

theorem readText_quoteOnto (s : String) (tail : List Char) :
    readText (Json.quoteOnto s tail) = .ok (s, tail) := by
  rw [readText, Json.quoteOnto, Json.skipGap_cons (by decide)]
  simp only [Json.takeString_escapeOnto]

/-- The member with the path is read. -/
theorem readMembers_pathKey (path : String) (fuel : Nat) (tail : List Char) :
    readMembers none true (fuel + 1) (Json.quoteOnto pathKey (':' :: Json.quoteOnto path tail))
      = readMembers (some path) false fuel tail := by
  have hkey : readKey none (Json.escapeOnto pathKey.toList ('"' :: ':' :: Json.quoteOnto path tail))
      = .ok (pathKey, Json.quoteOnto path tail) := by
    rw [readKey, Json.takeString_escapeOnto]
    rfl
  rw [readMembers, Json.quoteOnto, Json.skipGap_cons (by decide)]
  split
  · rename_i hbrace
    exact absurd (List.cons.inj hbrace).1 (by decide)
  · simp only [beforeKey, hkey, bind, Except.bind, readText_quoteOnto, if_true]

/-- **Every path can be asked for**, whatever its characters are. -/
theorem readBody_bodyFor (path : String) : readBody (bodyFor path).compact.toList = .ok path := by
  have hbody : (bodyFor path).compact.toList
      = '\x7b' :: Json.quoteOnto pathKey (':' :: Json.quoteOnto path ['\x7d']) := by
    rw [Json.compact, String.toList_ofList]
    rfl
  rw [hbody, readBody, Json.skipGap_cons (by decide)]
  simp only
  rw [readMembers_pathKey]
  rfl

theorem routeOf_analyzePath : routeOf analyzePath = analyzePath := by decide

theorem announcesJson_json : announcesJson "application/json" = true := by decide

theorem Request.poses_posing {path : String}
    (h : (bodyFor path).compact.utf8ByteSize ≤ bodyLimit) : (Request.posing path).Poses path where
  method := rfl
  route := routeOf_analyzePath
  mediaType := announcesJson_json
  size := h
  body := readBody_bodyFor path

/-! ## Answers -/

/-- How a path is answered, `expanded` being what it stands for: it is refused because it names no
directory, the answer tells of a failure, or the directory is analyzed. -/
structure Classified (site : Site) (expanded : RawText) (path : String) (response : Response) :
    Prop where
  /-- What is refused is empty or no directory, or the real path of the directory is none. -/
  refused : (∃ detail, response = failure 400 detail) ↔ trim path = "" ∨
    site.tree.isDirectoryAt site.here expanded = false ∨
      ∃ root, site.tree.realPath site.here expanded = .ok root ∧
        site.tree.isDirectoryAt [] (locationOf root) = false
  /-- A failure is that of finding the real path of a directory. -/
  failed : ∀ detail, response = failure 500 detail ↔ trim path ≠ "" ∧
    site.tree.isDirectoryAt site.here expanded = true ∧
      ∃ cause, site.tree.realPath site.here expanded = .error cause ∧
        (AnalysisError.io expanded cause).message = detail
  /-- All else is analyzed. -/
  analyzed : (¬ ∃ detail, response = failure 400 detail) →
    (¬ ∃ detail, response = failure 500 detail) → ∃ report,
      analyze site.host site.tree site.settings site.here expanded = .ok report ∧
        response = success report.toJson

section

variable {site : Site} {home expanded : RawText} {path : String}

theorem failure_ne_failure {status other : Nat} (h : status ≠ other) (detail detail' : String) :
    failure status detail ≠ failure other detail' :=
  fun heq => h (congrArg Response.status heq)

theorem success_ne_failure {status : Nat} (h : 200 ≠ status) (body : Json) (detail : String) :
    success body ≠ failure status detail :=
  fun heq => h (congrArg Response.status heq)

/-- A path that leads nowhere is refused. -/
theorem classified_refused (detail : String) (h : trim path = "" ∨
    site.tree.isDirectoryAt site.here expanded = false ∨
      ∃ root, site.tree.realPath site.here expanded = .ok root ∧
        site.tree.isDirectoryAt [] (locationOf root) = false) :
    Classified site expanded path (failure 400 detail) where
  refused := ⟨fun _ => h, fun _ => ⟨detail, rfl⟩⟩
  failed other := by
    refine iff_of_false (failure_ne_failure (by decide) _ _) ?_
    rintro ⟨hne, hdirectory, cause, hcause, -⟩
    rcases h with hempty | hnone | ⟨root, hroot, -⟩
    · exact hne hempty
    · exact Bool.false_ne_true (hnone.symm.trans hdirectory)
    · cases hcause.symm.trans hroot
  analyzed hnot := absurd ⟨detail, rfl⟩ hnot

/-- A directory without a real path is answered with a failure. -/
theorem classified_failed (hne : trim path ≠ "")
    (hdirectory : site.tree.isDirectoryAt site.here expanded = true) {cause : FileError}
    (hcause : site.tree.realPath site.here expanded = .error cause) :
    Classified site expanded path (failure 500 (AnalysisError.io expanded cause).message) where
  refused := by
    refine iff_of_false (fun ⟨_, h⟩ => failure_ne_failure (by decide) _ _ h) ?_
    rintro (hempty | hnone | ⟨root, hroot, -⟩)
    · exact hne hempty
    · exact Bool.false_ne_true (hnone.symm.trans hdirectory)
    · cases hcause.symm.trans hroot
  failed detail := by
    constructor
    · intro h
      have hdetail : (AnalysisError.io expanded cause).message = detail := by
        simpa [failure] using congrArg Response.body h
      exact ⟨hne, hdirectory, cause, hcause, hdetail⟩
    · rintro ⟨-, -, other, hother, rfl⟩
      cases hcause.symm.trans hother
      rfl
  analyzed _ hnot := absurd ⟨_, rfl⟩ hnot

/-- A repository is answered with its report. -/
theorem classified_analyzed (hne : trim path ≠ "") {root : Place}
    (hroot : repositoryAt site.tree site.here expanded = .ok root) {report : Report}
    (hreport : analyze site.host site.tree site.settings site.here expanded = .ok report) :
    Classified site expanded path (success report.toJson) where
  refused := by
    obtain ⟨hdirectory, hreal, hlocation⟩ := repositoryAt_eq_ok_iff.mp hroot
    refine iff_of_false (fun ⟨_, h⟩ => success_ne_failure (by decide) _ _ h) ?_
    rintro (hempty | hnone | ⟨place, hplace, hnone⟩)
    · exact hne hempty
    · exact Bool.false_ne_true (hnone.symm.trans hdirectory)
    · cases hreal.symm.trans hplace
      exact Bool.false_ne_true (hnone.symm.trans hlocation)
  failed detail := by
    obtain ⟨-, hreal, -⟩ := repositoryAt_eq_ok_iff.mp hroot
    refine iff_of_false (success_ne_failure (by decide) _ _) ?_
    rintro ⟨-, -, cause, hcause, -⟩
    cases hcause.symm.trans hreal
  analyzed _ _ := ⟨report, hreport, rfl⟩

/-- **Every path gets its answer** where there are workers. -/
theorem classified_analyzeRepository (hhome : site.home? = some home)
    (hpool : site.host.pool site.settings.extraction.workers = .ok ()) (path : String) :
    Classified site (expandHome (some home) (trim path)) path (analyzeRepository site path) := by
  unfold analyzeRepository
  rw [hhome]
  by_cases hempty : trim path = ""
  · rw [if_pos (String.isEmpty_iff.mpr hempty)]
    exact classified_refused _ (.inl hempty)
  · rw [if_neg fun h => hempty (String.isEmpty_iff.mp h)]
    generalize expandHome (some home) (trim path) = expanded
    cases hdirectory : site.tree.isDirectoryAt site.here expanded with
    | false =>
        simp only [hdirectory]
        exact classified_refused _ (.inr (.inl hdirectory))
    | true =>
        simp only [hdirectory, Bool.not_true, Bool.false_eq_true, if_false]
        -- the analysis looks for the real path and asks once more for the directory
        cases hreal : site.tree.realPath site.here expanded with
        | error cause =>
            simp only [analyze_of_realPath_eq_error hdirectory hreal]
            exact classified_failed hempty hdirectory hreal
        | ok root =>
            have hroot := repositoryAt_of_realPath hdirectory hreal
            cases hlocation : site.tree.isDirectoryAt [] (locationOf root) with
            | false =>
                rw [hlocation, if_neg Bool.false_ne_true] at hroot
                simp only [analyze_eq_error_of_repositoryAt hroot]
                exact classified_refused _ (.inr (.inr ⟨root, hreal, hlocation⟩))
            | true =>
                rw [hlocation, if_pos rfl] at hroot
                have hreport := analyze_eq_ok hroot hpool
                simp only [hreport]
                exact classified_analyzed hempty hroot hreport

/-- Where names are proper and the working directory has an absolute path within the limits, only
what names no directory is refused. -/
theorem Classified.refused_iff {response : Response} (h : Classified site expanded path response)
    (hnamed : site.tree.WellNamed) (hhere : FileTree.WithinLimits site.here) :
    (∃ detail, response = failure 400 detail) ↔
      trim path = "" ∨ site.tree.isDirectoryAt site.here expanded = false := by
  rw [h.refused]
  refine or_congr_right ⟨?_, .inl⟩
  rintro (hnone | ⟨root, hreal, hnone⟩)
  · exact hnone
  · by_contra hdirectory
    rw [Bool.not_eq_false] at hdirectory
    have hlocation := FileTree.isDirectoryAt_iff_spells.mpr
      ⟨root, FileTree.spells_of_realPath hnamed hhere hdirectory hreal⟩
    exact Bool.false_ne_true (hnone.symm.trans hlocation)

end

/-- **Requests are told apart by their path alone.** Where the home directory is known and there are
workers, every well-formed request is answered, and so is every path: a path that is empty once
blanks are taken off its ends, or that is then expanded to what is no directory, is refused with a
message, a directory without a real path is answered with a failure that tells why, and all others
get the report on the directory. A path can be asked for if its body is not too long. Only a tilde
in front that is a part of its own is expanded, to the home directory or to what goes on from it. -/
theorem boundary_classified {site : Site} {home : RawText} (hhome : site.home? = some home)
    (hpool : site.host.pool site.settings.extraction.workers = .ok ()) :
    (∀ path, Classified site (expandHome (some home) (trim path)) path
        (analyzeRepository site path)) ∧
      (∀ (request : Request) path, request.Poses path →
        Classified site (expandHome (some home) (trim path)) path (answer site request)) ∧
      (site.tree.WellNamed → FileTree.WithinLimits site.here → ∀ (request : Request) path,
        request.Poses path → ((∃ detail, answer site request = failure 400 detail) ↔
          trim path = "" ∨
            site.tree.isDirectoryAt site.here (expandHome (some home) (trim path)) = false)) ∧
      (∀ path, (bodyFor path).compact.utf8ByteSize ≤ bodyLimit →
        (Request.posing path).Poses path) ∧
      (∀ path : String, path ≠ "~" → startsWith path "~/" = false →
        expandHome (some home) path = path) ∧
      expandHome (some home) "~" = home ∧
      ∀ rest, FilePath.parts home <+:
        FilePath.parts (expandHome (some home) ("~/" ++ rest)) := by
  have hclassified : ∀ (request : Request) path, request.Poses path →
      Classified site (expandHome (some home) (trim path)) path (answer site request) := by
    intro request path hposes
    rw [hposes.answer_eq site]
    exact classified_analyzeRepository hhome hpool path
  refine ⟨classified_analyzeRepository hhome hpool, hclassified, ?_,
    fun _ => Request.poses_posing, fun _ => expandHome_of_ne, expandHome_tilde,
    parts_expandHome_inside⟩
  intro hnamed hhere request path hposes
  exact (hclassified request path hposes).refused_iff hnamed hhere

/-- A machine with a repository in the home directory of its user. -/
def repositoryAtHome : Site where
  host := {}
  tree := .directory [("home", .directory [("code", .directory [])]), ("code", .file [])]
  here := []
  home? := some ("/home" : RawText)
  settings := {}

/-- A second separator behind the tilde does not lead back to the root. -/
theorem boundary_classified_secondSeparator :
    repositoryAtHome.home? = some ("/home" : RawText) ∧
      repositoryAtHome.host.pool repositoryAtHome.settings.extraction.workers = .ok () ∧
      (Request.posing " ~//code\n").Poses " ~//code\n" ∧
      ∃ report, analyze {} repositoryAtHome.tree {} [] "/home/code" = .ok report ∧
        answer repositoryAtHome (Request.posing " ~//code\n") = success report.toJson := by
  have htrim : trim " ~//code\n" = "~//code" := by decide
  have hexpand : expandHome (some ("/home" : RawText)) "~//code" = "/home/code" := by decide
  have hroot : repositoryAt repositoryAtHome.tree [] "/home/code" = .ok ["home", "code"] := by cbv
  obtain ⟨hdirectory, hreal, -⟩ := repositoryAt_eq_ok_iff.mp hroot
  have hposes : (Request.posing " ~//code\n").Poses " ~//code\n" :=
    Request.poses_posing (by decide)
  obtain ⟨-, hclassified, hrefused, -⟩ :=
    boundary_classified (Eq.refl repositoryAtHome.home?) (Eq.refl (Except.ok ()))
  have hrefused := hrefused (by decide) .nil _ _ hposes
  obtain ⟨-, hfailed, hanalyzed⟩ := hclassified _ _ hposes
  rw [htrim, hexpand] at hrefused hfailed hanalyzed
  have hnot : ¬ ∃ detail, answer repositoryAtHome (Request.posing " ~//code\n")
      = failure 400 detail := by
    rw [hrefused]
    rintro (h | h)
    · exact absurd h (by decide)
    · exact absurd (hdirectory.symm.trans h) (by decide)
  have hfine : ¬ ∃ detail, answer repositoryAtHome (Request.posing " ~//code\n")
      = failure 500 detail := by
    rintro ⟨detail, h⟩
    obtain ⟨-, -, cause, hcause, -⟩ := (hfailed detail).mp h
    cases hcause.symm.trans hreal
  obtain ⟨report, hreport, hanswer⟩ := hanalyzed hnot hfine
  exact ⟨rfl, rfl, hposes, report, hreport, hanswer⟩

/-- A machine that serves in the last but one of many directories inside each other. -/
def deepSite : Site where
  host := {}
  tree := nested 1024
  here := inside 1023
  home? := some ("/home" : RawText)
  settings := {}

/-- **A directory may be answered with a failure**: the path of a request leads to a directory, and
since no real path is found on its way the answer tells of a fault of the service. -/
theorem boundary_unclassified :
    deepSite.home? = some ("/home" : RawText) ∧
      deepSite.host.pool deepSite.settings.extraction.workers = .ok () ∧
      (Request.posing "src/..").Poses "src/.." ∧ trim "src/.." = "src/.." ∧
      expandHome deepSite.home? "src/.." = "src/.." ∧
      deepSite.tree.isDirectoryAt deepSite.here "src/.." = true ∧
      answer deepSite (Request.posing "src/..")
        = failure 500 (AnalysisError.io "src/.." .nameTooLong).message := by
  have htrim : trim "src/.." = "src/.." := by decide
  have hexpand : expandHome deepSite.home? "src/.." = "src/.." := by decide
  have hdirectory : deepSite.tree.isDirectoryAt deepSite.here "src/.." = true :=
    FileTree.isDirectoryAt_iff_spells.mpr ⟨inside 1023, spells_back⟩
  have hposes : (Request.posing "src/..").Poses "src/.." := Request.poses_posing (by decide)
  have hclassified := classified_analyzeRepository (Eq.refl deepSite.home?)
    (Eq.refl (Except.ok ())) "src/.."
  have hanswer : analyzeRepository deepSite "src/.."
      = failure 500 (AnalysisError.io "src/.." .nameTooLong).message := by
    rw [hclassified.failed, htrim]
    exact ⟨by decide, hdirectory, .nameTooLong, realPath_back, rfl⟩
  exact ⟨rfl, rfl, hposes, htrim, hexpand, hdirectory, (hposes.answer_eq deepSite).trans hanswer⟩

end Service

end Cartograph
