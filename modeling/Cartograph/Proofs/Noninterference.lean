import Cartograph.Proofs.Traces

/-!
# What a report cannot tell

Of a file of no particular language a report shows the node, and that is the same whatever the file
holds. So two repositories that differ in nothing but what such files hold have the same report,
however much of these files is read (`generic_content_unseen`).
-/

namespace Cartograph

/-- A file of no particular language keeps its node, and no edge of the report touches it. -/
theorem alone_of_generic {tree : FileTree} {settings : Settings} {root : Place} {file : SourceFile}
    (hfile : file ∈ repositoryFiles tree root settings.discovery)
    (hgeneric : file.language = .generic) :
    (∃ rated ∈ (repositoryReport tree settings root).nodes, rated.node = file.node) ∧
      ∀ rated ∈ (repositoryReport tree settings root).nodes,
        rated.node.id = file.id → rated.degree = 0 := by
  have hnode : file.node ∈ (repositoryReport tree settings root).nodes.map RatedNode.node := by
    rw [nodes_repositoryReport]
    exact node_mem_combined hfile settings.extraction
  refine ⟨List.mem_map.mp hnode, fun rated hrated hid => ?_⟩
  rw [Graph.degree_of_mem_report hrated, hid]
  have hpaths := pathsTellLanguages tree root settings.discovery
  exact Graph.getD_degrees_eq_zero fun edge hedge =>
    not_touched_of_generic hpaths hfile hgeneric hedge

/-- **What files of no particular language hold is not seen.** Two trees with the same entries, in
which the ignore file and the files of dedicated languages hold the same, have the same report,
however much of other files is read. Each of those other files has its node, and nothing leads to it
or leaves it. -/
theorem generic_content_unseen {host : Host} {tree other : FileTree} {here root : Place}
    {path : RawText} {settings : Settings} (hroot : repositoryAt tree here path = .ok root)
    (hpool : host.pool settings.extraction.workers = .ok ())
    (hentries : tree.SameEntries other)
    (hignore : other.readBytes root ignoreFile = tree.readBytes root ignoreFile)
    (hdedicated : ∀ file ∈ repositoryFiles tree root settings.discovery,
      file.language ≠ .generic →
        other.readBytes [] file.location = tree.readBytes [] file.location)
    (limit : UInt64) :
    ∃ report, analyze host tree settings here path = .ok report ∧
      analyze host other
        { settings with extraction := { settings.extraction with readLimit := limit } } here path
          = .ok report ∧
      ∀ file ∈ repositoryFiles tree root settings.discovery, file.language = .generic →
        (∃ rated ∈ report.nodes, rated.node = file.node) ∧
          ∀ rated ∈ report.nodes, rated.node.id = file.id → rated.degree = 0 := by
  refine ⟨_, analyze_eq_ok hroot hpool, ?_, fun file hfile hgeneric => ?_⟩
  · rw [← analyze_eq_ok hroot hpool]
    exact analyze_congr hroot hentries hignore (by rfl) (by rfl) (fun file hfile hlanguage =>
      SourceFile.contribution_congr hlanguage (hdedicated file hfile hlanguage) _ _) host
  · exact alone_of_generic hfile hgeneric

/-- A file that imports another one and, beside them, notes. -/
def withNotes (notes : String) : FileTree :=
  .directory [("repo", .directory
    [("a.py", .file (Text.Utf8.encode "import b\n")), ("b.py", .file []),
      ("docs", .directory [("notes.md", .file (Text.Utf8.encode notes))])])]

/-- The repository with its notes. -/
theorem get?_withNotes (notes : String) : (withNotes notes).get? ["repo"] = some (.directory
    [("a.py", .file (Text.Utf8.encode "import b\n")), ("b.py", .file []),
      ("docs", .directory [("notes.md", .file (Text.Utf8.encode notes))])]) := rfl

theorem readBytes_withNotes (notes : String) :
    (withNotes notes).readBytes ["repo"] ignoreFile = .error .missing :=
  readBytes_of_missing (get?_withNotes notes) rfl

theorem repositoryFiles_withNotes : repositoryFiles (withNotes "") ["repo"] {}
    = [SourceFile.at ["repo"] ["a.py"], SourceFile.at ["repo"] ["b.py"],
        SourceFile.at ["repo"] ["docs", "notes.md"]] := by
  rw [repositoryFiles, ignoredIn_of_missing (get?_withNotes "") rfl]
  cbv

/-- Notes that look like imports of files that are there leave no trace, however much of them is
read. -/
theorem notes_unseen :
    repositoryAt (withNotes "") [] "/repo" = .ok ["repo"] ∧
      ∃ report, analyze {} (withNotes "") {} [] "/repo" = .ok report ∧
        analyze {} (withNotes "import a \n#include <b.py>\n") { extraction := { readLimit := 12 } }
          [] "/repo" = .ok report ∧
        ∀ file ∈ repositoryFiles (withNotes "") ["repo"] {}, file.language = .generic →
          (∃ rated ∈ report.nodes, rated.node = file.node) ∧
            ∀ rated ∈ report.nodes, rated.node.id = file.id → rated.degree = 0 := by
  have hroot : repositoryAt (withNotes "") [] "/repo" = .ok ["repo"] := by cbv
  have hentries : (withNotes "").SameEntries (withNotes "import a \n#include <b.py>\n") := rfl
  have hdedicated : ∀ file ∈ repositoryFiles (withNotes "") ["repo"] ({} : Settings).discovery,
      file.language ≠ .generic →
        (withNotes "import a \n#include <b.py>\n").readBytes [] file.location
          = (withNotes "").readBytes [] file.location := by
    intro file hfile hlanguage
    rw [repositoryFiles_withNotes] at hfile
    simp only [List.mem_cons, List.not_mem_nil, or_false] at hfile
    rcases hfile with rfl | rfl | rfl
    · cbv
    · cbv
    · exact absurd (by cbv) hlanguage
  refine ⟨hroot, generic_content_unseen hroot rfl hentries ?_ hdedicated 12⟩
  rw [readBytes_withNotes, readBytes_withNotes]

end Cartograph
