import Cartograph.Proofs.Imports.Candidates

/-!
# Imports of directories

A directory stands for the index file in it, because the path of that file is also looked up without
the name of the file and the separator in front of it. At the root of a repository there is no such
separator, so the root stands for no file. Main statement: where the path of a directory leads if its
index file is the only file that the resolver knows (`directory_means_index`). The root does not lead
to its index file (`root_index_missed`).
-/

namespace Cartograph.Relative

/-- The path of the index file with an extension in a directory below the root. -/
def indexPath (directory : List String) (extension : String) : String :=
  Text.joinText '/' (directory ++ ["index." ++ extension])

section

variable {directory : List String} {e : String} {file : SourceFile}

/-- Below the root the name of the index file stands behind a separator. -/
theorem indexPath_eq (h : directory ≠ []) (e : String) :
    indexPath directory e = Text.joinText '/' directory ++ "/index" ++ "." ++ e := by
  have hmark : "/".toList = ['/'] := rfl
  have hname : "/" ++ ("index." ++ e) = "/index" ++ ("." ++ e) := by
    rw [← String.append_assoc, ← String.append_assoc]
    rfl
  rw [indexPath, Text.joinText_concat hmark h, String.append_assoc, hname,
    String.append_assoc, String.append_assoc]

theorem means_directory (h : directory ≠ []) (he : e ∈ Language.script.extensions)
    (hpath : file.path = indexPath directory e) : Means (Text.joinText '/' directory) file := by
  refine Or.inr ⟨Text.joinText '/' directory ++ "/index", Or.inl ⟨e, he, ?_⟩, Or.inr rfl⟩
  rw [hpath, indexPath_eq h]

/-- At the root nothing that is tried may mean the index file. -/
theorem not_means_root (he : e ∈ Language.script.extensions) (hpath : file.path = indexPath [] e)
    {candidate : String} (hcandidate : candidate ∈ candidates (Text.joinText '/' [])) :
    ¬ Means candidate file := by
  rw [← mem_keys_iff, hpath]
  clear hpath
  revert e candidate
  decide

/-- **Where the path of a directory leads.** A relative path to a directory, in whatever file, leads
to the index file in the directory if the resolver knows no other file, unless the directory is the
root. -/
theorem directory_means_index (he : e ∈ Language.script.extensions)
    (hpath : file.path = indexPath directory e) {source target : String}
    (hdot : Text.startsWith target "." = true)
    (hjoin : joinPath? (directoryOf source) target = some (Text.joinText '/' directory)) :
    (resolver [file]).resolve source target = if directory = [] then none else some file.id := by
  split
  · rename_i hroot
    subst hroot
    rw [Resolver.BuiltFrom.relative.resolve_singleton_eq_none_iff, Ne,
      resolve_singleton_iff hdot hjoin]
    rintro ⟨candidate, hcandidate, hmeans⟩
    exact not_means_root he hpath hcandidate hmeans
  · rename_i hbelow
    rw [resolve_singleton_iff hdot hjoin]
    exact ⟨Text.joinText '/' directory, List.mem_cons_self, means_directory hbelow he hpath⟩

end

/-- From `pages` the directory `components` beside it leads to its index file. -/
theorem directory_means_index_components :
    (resolver [SourceFile.at ["repo"] ["src", "components", "index.tsx"]]).resolve
        "file:src/pages/home.ts" "../components"
      = some (SourceFile.at ["repo"] ["src", "components", "index.tsx"]).id := by
  have hpath : (SourceFile.at ["repo"] ["src", "components", "index.tsx"]).path
      = indexPath ["src", "components"] "tsx" := by cbv
  have hleads := directory_means_index (by decide) hpath
    (by cbv : Text.startsWith "../components" "." = true)
    (by cbv : joinPath? (directoryOf "file:src/pages/home.ts") "../components" = _)
  rwa [if_neg (by decide)] at hleads

/-! ## The index file of a repository -/

/-- A script below an index file that stands at the root. -/
def indexAtRoot : FileTree :=
  .directory [("repo", .directory
    [("index.js", .file []), ("src", .directory
      [("a.js", .file (Text.Utf8.encode "import a from '..'\n"))])])]

theorem repositoryFiles_indexAtRoot : repositoryFiles indexAtRoot ["repo"] {} =
    [SourceFile.at ["repo"] ["index.js"], SourceFile.at ["repo"] ["src", "a.js"]] := by
  have hroot : indexAtRoot.get? ["repo"] = some (.directory
      [("index.js", .file []), ("src", .directory
        [("a.js", .file (Text.Utf8.encode "import a from '..'\n"))])]) := rfl
  rw [repositoryFiles, ignoredIn_of_missing hroot (by decide)]
  cbv

/-- **The root does not lead to its index file**: `..` in `src/a.js` is the path of the root, but the
file `index.js` there is not what it means. -/
theorem root_index_missed :
    repositoryAt indexAtRoot [] "/repo" = .ok ["repo"] ∧
      ∃ file ∈ repositoryFiles indexAtRoot ["repo"] {}, file.path = indexPath [] "js" ∧
        (∃ source ∈ repositoryFiles indexAtRoot ["repo"] {}, source.id = "file:src/a.js") ∧
        joinPath? (directoryOf "file:src/a.js") ".." = some (Text.joinText '/' []) ∧
        (resolver [file]).resolve "file:src/a.js" ".." = none := by
  have hjoin : joinPath? (directoryOf "file:src/a.js") ".." = some (Text.joinText '/' []) := by cbv
  have hpath : (SourceFile.at ["repo"] ["index.js"]).path = indexPath [] "js" := by cbv
  rw [repositoryFiles_indexAtRoot]
  refine ⟨by cbv, SourceFile.at ["repo"] ["index.js"], by simp, hpath,
    ⟨SourceFile.at ["repo"] ["src", "a.js"], by simp, by cbv⟩, hjoin, ?_⟩
  rw [Resolver.BuiltFrom.relative.resolve_singleton_eq_none_iff, Ne,
    resolve_singleton_iff (by cbv) hjoin]
  rintro ⟨candidate, hcandidate, hmeans⟩
  exact not_means_root (by decide) hpath hcandidate hmeans

end Cartograph.Relative
