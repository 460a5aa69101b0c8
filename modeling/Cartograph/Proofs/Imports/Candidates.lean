import Cartograph.Proofs.Imports.Endings
import Cartograph.Proofs.Imports.Placing

/-!
# Files that a relative path may mean

A path may mean a file whose path it is, with its extension or without, and a directory may mean the
index file in it. All of these stand in one table, in which later files replace earlier ones. Main
statements: an import leads to the last file that is meant by the first of the paths which are tried
and mean any, and never to a file whose path is of another form (`candidates_answer`). So an exact
path leads to the last of the files that it may mean (`exact_path_answers`), which need not be the
file whose path it is (`exact_path_passed_over`).
-/

namespace Cartograph.Relative

/-! ## Extensions -/

/-- The path without its script extension; one that has none is left as it is. -/
def Stripped (path short : String) : Prop :=
  (∃ e ∈ Language.script.extensions, path = short ++ "." ++ e) ∨
    short = path ∧ ∀ e ∈ Language.script.extensions, ∀ rest, path ≠ rest ++ "." ++ e

theorem not_mem_dot_of_mem_extensions {e : String} (h : e ∈ Language.script.extensions) :
    '.' ∉ e.toList := by
  revert e
  decide

theorem withoutExtension_eq_iff {path short : String} :
    withoutExtension path = short ↔ Stripped path short :=
  Dotted.withoutEnding_eq_iff fun _ => not_mem_dot_of_mem_extensions

/-! ## What a path may mean -/

/-- The path may mean the file: it is the path of the file, with its extension or without, or the
path of the directory that the file is the index of. -/
def Means (path : String) (file : SourceFile) : Prop :=
  file.path = path ∨ ∃ short, Stripped file.path short ∧ (short = path ∨ short = path ++ "/index")

/-- A path may mean a file exactly when the file is filed under it. -/
theorem mem_keys_iff {path : String} {file : SourceFile} :
    path ∈ keys file.path ↔ Means path file := by
  have hindex : path ∈ (Text.stripEnd? (withoutExtension file.path) indexEnding).toList ↔
      withoutExtension file.path = path ++ "/index" := by
    rw [Option.mem_toList, Text.stripEnd?_eq_some_iff, indexEnding]
  simp only [keys, List.mem_cons, hindex, Means, ← withoutExtension_eq_iff, exists_eq_left']
  rw [eq_comm, @eq_comm _ path (withoutExtension file.path)]

/-- What a path may mean has the path itself in front, and behind it an extension at most. -/
theorem Means.path_eq {path : String} {file : SourceFile} (h : Means path file) :
    file.path = path ∨ file.path = path ++ "/index" ∨ ∃ e ∈ Language.script.extensions,
      file.path = path ++ "." ++ e ∨ file.path = path ++ "/index." ++ e := by
  rcases h with hpath | ⟨short, ⟨e, he, hpath⟩ | ⟨hpath, -⟩, rfl | rfl⟩
  · exact Or.inl hpath
  · exact Or.inr (Or.inr ⟨e, he, Or.inl hpath⟩)
  · refine Or.inr (Or.inr ⟨e, he, Or.inr ?_⟩)
    have hdot : "/index" ++ "." = "/index." := by decide
    rw [hpath, @String.append_assoc path, hdot]
  · exact Or.inl hpath.symm
  · exact Or.inr (Or.inl hpath.symm)

section

variable {files : List SourceFile} {path : String}

/-- **What is filed under a path**: the last of the files that it may mean. -/
theorem getElem?_index {id : String} :
    (index files)[path]? = some id ↔ ∃ file, LastWith (Means path) files file ∧ file.id = id := by
  have hkeys : ∀ file : SourceFile, (keys file.path).contains path = true ↔ Means path file :=
    fun file => List.contains_iff_mem.trans mem_keys_iff
  rw [index, Table.getElem?_lastWins_names, Option.map_eq_some_iff]
  simp only [find?_eq_some_iff_firstWith hkeys, firstWith_reverse_iff]

theorem exists_lastWith_means (h : ∃ file ∈ files, Means path file) :
    ∃ last, LastWith (Means path) files last := by
  simp only [← mem_keys_iff, ← isSome_index_iff] at h
  obtain ⟨id, hid⟩ := Option.isSome_iff_exists.mp h
  obtain ⟨last, hlast, -⟩ := getElem?_index.mp hid
  exact ⟨last, hlast⟩

end

/-! ## Imports -/

/-- The first of the paths that are tried for `path` which may mean any of the files. -/
def FirstTried (files : List SourceFile) (path candidate : String) : Prop :=
  FirstWith (fun c => ∃ file ∈ files, Means c file) (candidates path) candidate

/-- The answer to an import is the last file that is meant by the first of the paths which are tried
and may mean any. -/
structure AnswersByCandidates (files : List SourceFile) (source target : String)
    (answer : Option String) : Prop where
  some_iff : ∀ id, answer = some id ↔ Text.startsWith target "." = true ∧
    ∃ path, joinPath? (directoryOf source) target = some path ∧
      ∃ candidate, FirstTried files path candidate ∧
        ∃ file, LastWith (Means candidate) files file ∧ file.id = id
  isSome_iff : answer.isSome = true ↔ Text.startsWith target "." = true ∧
    ∃ path, joinPath? (directoryOf source) target = some path ∧
      ∃ candidate ∈ candidates path, ∃ file ∈ files, Means candidate file
  /-- No answer is a file of an unrelated path. -/
  sound : ∀ id, answer = some id →
    ∃ path, joinPath? (directoryOf source) target = some path ∧
      ∃ c ∈ candidates path, ∃ file ∈ files, id = fileId file.path ∧
        (file.path = c ∨ file.path = c ++ "/index" ∨ ∃ e ∈ Language.script.extensions,
          file.path = c ++ "." ++ e ∨ file.path = c ++ "/index." ++ e)

theorem resolve_eq_some_iff {files : List SourceFile} {source target id : String} :
    (resolver files).resolve source target = some id ↔ Text.startsWith target "." = true ∧
      ∃ path, joinPath? (directoryOf source) target = some path ∧
        ∃ candidate, FirstTried files path candidate ∧
          ∃ file, LastWith (Means candidate) files file ∧ file.id = id := by
  rw [resolve_resolver, resolveIn]
  by_cases hdot : Text.startsWith target "." = true
  · rw [if_pos hdot, and_iff_right hdot]
    cases hjoin : joinPath? (directoryOf source) target with
    | none => simp
    | some path =>
        simp only [Option.some.injEq, exists_eq_left', findSome?_eq_some_iff_firstWith,
          isSome_index_iff, mem_keys_iff, getElem?_index, FirstTried]
  · rw [if_neg hdot]
    exact iff_of_false nofun fun h => hdot h.1

/-- **The only file of a resolver** is meant by an import exactly when one of the paths that are
tried may mean it. -/
theorem resolve_singleton_iff {file : SourceFile} {source target path : String}
    (hdot : Text.startsWith target "." = true)
    (hjoin : joinPath? (directoryOf source) target = some path) :
    (resolver [file]).resolve source target = some file.id ↔
      ∃ candidate ∈ candidates path, Means candidate file := by
  rw [Resolver.BuiltFrom.relative.resolve_singleton_iff, resolve_resolver, isSome_resolveIn_iff]
  simp [hdot, hjoin, mem_keys_iff]

/-- **An import means a file of one of the paths that are tried.** Whatever files a resolver is
built from, its answer to every import is the last file that the first of these paths may mean. -/
theorem candidates_answer (files : List SourceFile) (source target : String) :
    AnswersByCandidates files source target ((resolver files).resolve source target) where
  some_iff _ := resolve_eq_some_iff
  isSome_iff := by
    rw [resolve_resolver, isSome_resolveIn_iff]
    simp only [mem_keys_iff]
  sound id hid := by
    obtain ⟨-, path, hjoin, candidate, hfirst, file, hlast, rfl⟩ := resolve_eq_some_iff.mp hid
    exact ⟨path, hjoin, candidate, hfirst.mem, file, hlast.mem, rfl, hlast.holds.path_eq⟩

/-! ## Exact paths -/

/-- **An exact path** leads to the last of the files that it may mean, so to the file whose path it
is exactly when no file behind it may be meant as well. -/
theorem exact_path_answers {files : List SourceFile} {file : SourceFile} (hfile : file ∈ files)
    {source target : String} (hdot : Text.startsWith target "." = true)
    (hjoin : joinPath? (directoryOf source) target = some file.path) :
    ∃ last, LastWith (Means file.path) files last ∧
      (resolver files).resolve source target = some last.id ∧
      ((resolver files).resolve source target = some file.id ↔ last.path = file.path) := by
  have hmeant : ∃ f ∈ files, Means file.path f := ⟨file, hfile, Or.inl rfl⟩
  obtain ⟨last, hlast⟩ := exists_lastWith_means hmeant
  -- the path itself is tried before anything is put behind it
  have hfirst : FirstTried files file.path file.path := ⟨[], _, rfl, hmeant, nofun⟩
  have hresolve : (resolver files).resolve source target = some last.id :=
    resolve_eq_some_iff.mpr ⟨hdot, _, hjoin, _, hfirst, last, hlast, rfl⟩
  refine ⟨last, hlast, hresolve, ?_⟩
  rw [hresolve, Option.some_inj]
  exact ⟨fun hid => fileId_injective hid, fun hpath => congrArg fileId hpath⟩

/-! ## An exact path that is passed over -/

/-- A script that imports `a.js` by its exact path, in a repository with a file `a.js.ts`. -/
def doubleExtension : FileTree :=
  .directory [("repo", .directory
    [("a.js", .file []), ("a.js.ts", .file []),
      ("b.js", .file (Text.Utf8.encode "import a from './a.js'\n"))])]

theorem scripts_doubleExtension :
    filesOf .script (repositoryFiles doubleExtension ["repo"] {}) =
      [SourceFile.at ["repo"] ["a.js"], SourceFile.at ["repo"] ["a.js.ts"],
        SourceFile.at ["repo"] ["b.js"]] := by
  have hroot : doubleExtension.get? ["repo"] = some (.directory
      [("a.js", .file []), ("a.js.ts", .file []),
        ("b.js", .file (Text.Utf8.encode "import a from './a.js'\n"))]) := rfl
  rw [repositoryFiles, ignoredIn_of_missing hroot (by decide)]
  cbv

/-- From `b.js` the name leads to the path of the first file. -/
theorem joinPath?_doubleExtension :
    joinPath? (directoryOf "file:b.js") "./a.js"
      = some (SourceFile.at ["repo"] ["a.js"]).path := by
  cbv

theorem mem_doubleExtension : SourceFile.at ["repo"] ["a.js"] ∈
    filesOf .script (repositoryFiles doubleExtension ["repo"] {}) := by
  rw [scripts_doubleExtension]
  exact List.mem_cons_self

/-- The path may mean both files of its name, and no other one. -/
theorem lastWith_doubleExtension : LastWith (Means (SourceFile.at ["repo"] ["a.js"]).path)
    (filesOf .script (repositoryFiles doubleExtension ["repo"] {}))
    (SourceFile.at ["repo"] ["a.js.ts"]) := by
  have hpath : (SourceFile.at ["repo"] ["a.js"]).path = "a.js" := by cbv
  have hmeant : keys (SourceFile.at ["repo"] ["a.js.ts"]).path = ["a.js.ts", "a.js"] := by cbv
  have hother : keys (SourceFile.at ["repo"] ["b.js"]).path = ["b.js", "b"] := by cbv
  rw [scripts_doubleExtension, hpath]
  refine ⟨[SourceFile.at ["repo"] ["a.js"]], [SourceFile.at ["repo"] ["b.js"]], rfl, ?_, ?_⟩
  · rw [← mem_keys_iff, hmeant]
    decide
  · intro file hfile
    rw [List.mem_singleton.mp hfile, ← mem_keys_iff, hother]
    decide

/-- The exact path leads to the last file that it may mean. -/
theorem exact_path_answers_doubleExtension :
    ∃ last, LastWith (Means (SourceFile.at ["repo"] ["a.js"]).path)
        (filesOf .script (repositoryFiles doubleExtension ["repo"] {})) last ∧
      (resolver (filesOf .script (repositoryFiles doubleExtension ["repo"] {}))).resolve
        "file:b.js" "./a.js" = some last.id ∧
      ((resolver (filesOf .script (repositoryFiles doubleExtension ["repo"] {}))).resolve
        "file:b.js" "./a.js" = some (SourceFile.at ["repo"] ["a.js"]).id ↔
          last.path = (SourceFile.at ["repo"] ["a.js"]).path) :=
  exact_path_answers mem_doubleExtension (by cbv) joinPath?_doubleExtension

/-- **An exact path can be passed over**: `./a.js` in `b.js` leads to `a.js.ts` and not to the file
`a.js`. -/
theorem exact_path_passed_over :
    repositoryAt doubleExtension [] "/repo" = .ok ["repo"] ∧
      ∃ file ∈ filesOf .script (repositoryFiles doubleExtension ["repo"] {}),
        file.path = "a.js" ∧ Text.startsWith "./a.js" "." = true ∧
        joinPath? (directoryOf "file:b.js") "./a.js" = some file.path ∧
        (resolver (filesOf .script (repositoryFiles doubleExtension ["repo"] {}))).resolve
          "file:b.js" "./a.js" = some "file:a.js.ts" ∧
        (resolver (filesOf .script (repositoryFiles doubleExtension ["repo"] {}))).resolve
          "file:b.js" "./a.js" ≠ some file.id := by
  have hfirst : FirstTried (filesOf .script (repositoryFiles doubleExtension ["repo"] {}))
      (SourceFile.at ["repo"] ["a.js"]).path (SourceFile.at ["repo"] ["a.js"]).path :=
    ⟨[], _, rfl, ⟨_, mem_doubleExtension, Or.inl rfl⟩, nofun⟩
  have hresolve : (resolver (filesOf .script
      (repositoryFiles doubleExtension ["repo"] {}))).resolve "file:b.js" "./a.js"
        = some "file:a.js.ts" :=
    resolve_eq_some_iff.mpr ⟨by cbv, _, joinPath?_doubleExtension, _, hfirst, _,
      lastWith_doubleExtension, by cbv⟩
  refine ⟨by cbv, SourceFile.at ["repo"] ["a.js"], mem_doubleExtension, by cbv, by cbv,
    joinPath?_doubleExtension, hresolve, ?_⟩
  have hid : (SourceFile.at ["repo"] ["a.js"]).id = "file:a.js" := by cbv
  rw [hresolve, hid]
  decide

end Cartograph.Relative
