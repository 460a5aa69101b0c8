import Cartograph.Proofs.Exactness
import Cartograph.Proofs.Imports.Candidates
import Cartograph.Proofs.Imports.Fronts

/-!
# Files without their extensions

The family of a file is told by its extension whatever its letter case, but only an extension in
small letters is left out of the names of the file. So a file is meant by its name without the
extension exactly if the extension is written as in the list of the family, and else only by chance.
Main statement: where the short name of a file leads that is the only one of its family
(`short_name_leads`). A file with an extension in capitals is not found in this way
(`capital_extension_missed`).
-/

namespace Cartograph

/-! ## Extensions in lowercase -/

namespace Text

/-- A character that has no other form in lowercase is still there. -/
theorem mem_lowerFrom {c : Char} (hself : lowerChar c = c) (hsigma : c ≠ 'Σ') (hdotted : c ≠ 'İ')
    {cs : List Char} (h : c ∈ cs) (before : List Char) : c ∈ lowerFrom before cs := by
  induction cs generalizing before with
  | nil => cases h
  | cons d cs ih =>
      rw [lowerFrom]
      rcases List.mem_cons.mp h with rfl | hrest
      · rw [if_neg hsigma, if_neg hdotted, hself]
        exact List.mem_cons_self
      · have hlater := ih hrest (d :: before)
        split
        · exact List.mem_cons_of_mem _ hlater
        · split
          · exact List.mem_cons_of_mem _ (List.mem_cons_of_mem _ hlater)
          · exact List.mem_cons_of_mem _ hlater

theorem mem_lower {c : Char} (hself : lowerChar c = c) (hsigma : c ≠ 'Σ') (hdotted : c ≠ 'İ')
    {s : String} (h : c ∈ s.toList) : c ∈ (lower s).toList := by
  rw [lower, String.toList_ofList]
  exact mem_lowerFrom hself hsigma hdotted h []

end Text

/-- What a family owns is one of its extensions once it is made lowercase. -/
theorem Language.lower_mem_extensions {extension : String} {language : Language}
    (h : ofExtension extension = language) (hlanguage : language ≠ .generic) :
    Text.lower extension ∈ language.extensions := by
  rw [ofExtension] at h
  cases howner : owner? extension with
  | none => exact absurd (by rw [← h, howner]; rfl) hlanguage
  | some found =>
      rw [howner, Option.getD_some] at h
      subst h
      simpa [owner?] using List.find?_some howner

/-! ## Names of a file without its extension -/

namespace SourceFile

/-- The names of the directories that lead to the file. -/
def folders (file : SourceFile) : List String :=
  (Text.splitText '/' file.path).dropLast

/-- The name of the file without its extension. -/
def stem (file : SourceFile) : String :=
  (FilePath.cutShown file.name).1

/-- The extension in the letters of the name. -/
def writtenExtension (file : SourceFile) : String :=
  (FilePath.cutShown file.name).2.getD ""

/-- The path of the file without its extension. -/
def shortPath (file : SourceFile) : String :=
  Text.joinText '/' (file.folders ++ [file.stem])

/-- The path of the file without its extension, dotted. Where a name has a backslash, that is a
separator too. -/
def shortModule (file : SourceFile) : String :=
  Dotted.dots (Text.joinText '.' (file.folders ++ [file.stem]))

/-- Where the short name of a file leads for a resolver that knows no other file. -/
structure LeadsByShortName (file : SourceFile) : Prop where
  /-- Without backslashes the short name of a module is made of the names of the directories and the
  name of the file. -/
  shortModule_eq : '\\' ∉ file.path.toList →
    file.shortModule = Text.joinText '.' (file.folders ++ [file.stem])
  /-- A Python file is meant by it exactly if its extension is in the list of the family, or if some
  of the components that the short name begins with happen to be those that it ends in with the
  extension behind it. -/
  python : file.language = .python → ∀ source,
    ((Dotted.resolver [file]).resolve source file.shortModule = some file.id ↔
      file.writtenExtension ∈ Language.python.extensions ∨
        ∃ front, front ≠ [] ∧ front <+: Text.splitText '.' file.shortModule ∧
          front <:+ Text.splitText '.' file.shortModule ++ [file.writtenExtension])
  /-- A script file is meant by a relative path to its short name exactly if its extension is in the
  list of the family. -/
  script : file.language = .script → ∀ source target, Text.startsWith target "." = true →
    Relative.joinPath? (Relative.directoryOf source) target = some file.shortPath →
      ((Relative.resolver [file]).resolve source target = some file.id ↔
        file.writtenExtension ∈ Language.script.extensions)

end SourceFile

/-! ## Cutting the extension off -/

namespace FilePath

/-- A name that is cut is what stands before the dot, the dot, and an extension without dots. -/
theorem eq_of_cutShown_eq {name stem ext : String} (h : cutShown name = (stem, some ext)) :
    name = stem ++ "." ++ ext ∧ '.' ∉ ext.toList := by
  rw [cutShown, cutAtLast] at h
  split at h
  · rename_i last p ps hpieces
    dsimp only at h
    split at h
    · cases h
    · obtain ⟨rfl, hext⟩ := Prod.mk.inj h
      obtain rfl := Option.some.inj hext
      have hlist : Text.pieces '.' name.toList = (p :: ps).reverse ++ [last] := by
        rw [← List.reverse_reverse (Text.pieces '.' name.toList), hpieces, List.reverse_cons]
      refine ⟨?_, ?_⟩
      · rw [← String.toList_inj, ← Text.glue_pieces '.' name.toList, hlist,
          Text.glue_append (by simp) (by simp)]
        simp [Text.glue]
      · rw [String.toList_ofList]
        have hmem : last ∈ Text.pieces '.' name.toList := by
          rw [hlist]
          exact List.mem_concat_self
        exact Text.not_mem_of_mem_pieces hmem
  · cases h

/-- The stem of a name is a part of the name. -/
theorem mem_of_mem_stem {name : String} {c : Char} (h : c ∈ (cutShown name).1.toList) :
    c ∈ name.toList := by
  cases hcut : cutShown name with
  | mk stem ext =>
      rw [hcut] at h
      cases ext with
      | some ext =>
          rw [(eq_of_cutShown_eq hcut).1, String.append_assoc, String.toList_append]
          exact List.mem_append_left _ h
      | none =>
          -- a name that is not cut is its own stem
          have hstem : name = stem := by
            unfold cutShown cutAtLast at hcut
            split at hcut
            · dsimp only at hcut
              split at hcut
              · rw [← (Prod.mk.inj hcut).1, String.ofList_toList]
              · cases (Prod.mk.inj hcut).2
            · rw [← (Prod.mk.inj hcut).1, String.ofList_toList]
          rwa [hstem]

end FilePath

namespace SourceFile

/-- A file that a family owns has an extension, which stands behind the last dot of its path. -/
structure CutAtDot (file : SourceFile) : Prop where
  path_eq : file.path = file.shortPath ++ "." ++ file.writtenExtension
  extension_eq : file.extension = Text.lower file.writtenExtension
  not_mem_dot : '.' ∉ file.writtenExtension.toList
  not_mem_slash : '/' ∉ file.writtenExtension.toList

section

variable {root above : Place} {name : RawText}

theorem folders_at (h : ∀ n ∈ above ++ [name], EntryName n) :
    (SourceFile.at root (above ++ [name])).folders = above.map RawText.shown := by
  rw [folders, SourceFile.at_eq h, splitText_shown_pathOf (by simp) h, List.map_append,
    List.map_singleton, List.dropLast_concat]

theorem cutAtDot_at (h : ∀ n ∈ above ++ [name], EntryName n)
    (howned : (SourceFile.at root (above ++ [name])).language ≠ .generic) :
    (SourceFile.at root (above ++ [name])).CutAtDot := by
  have hname : EntryName name := h name (by simp)
  cases hcut : FilePath.cutShown name.shown with
  | mk stem ext =>
      cases ext with
      | none =>
          have hnone : lowerExtension name.shown = "" := by
            rw [lowerExtension, hcut]
            rfl
          refine absurd ?_ howned
          rw [language, SourceFile.at_eq h, hnone]
          rfl
      | some ext =>
          obtain ⟨hsplit, hdot⟩ := FilePath.eq_of_cutShown_eq hcut
          have hstem : (SourceFile.at root (above ++ [name])).stem = stem := by
            rw [SourceFile.stem, SourceFile.at_eq h, hcut]
          have hwritten : (SourceFile.at root (above ++ [name])).writtenExtension = ext := by
            rw [writtenExtension, SourceFile.at_eq h, hcut, Option.getD_some]
          have hpath : (pathOf (above ++ [name])).shown
              = Text.joinText '/' (above.map RawText.shown ++ [stem]) ++ "." ++ ext := by
            rw [shown_pathOf, List.map_append, List.map_singleton, hsplit, String.append_assoc,
              Text.joinText_concat_append, ← String.append_assoc]
          refine ⟨?_, ?_, ?_, ?_⟩
          · rw [shortPath, folders_at h, hstem, hwritten, SourceFile.at_eq h]
            exact hpath
          · rw [hwritten, SourceFile.at_eq h, lowerExtension, hcut, Option.getD_some]
          · rwa [hwritten]
          · rw [hwritten]
            intro hslash
            refine hname.not_mem_shown ?_
            rw [hsplit]
            simp [hslash]

/-- Names without backslashes are dotted as they are. -/
theorem shortModule_at (h : ∀ n ∈ above ++ [name], EntryName n)
    (hback : '\\' ∉ (SourceFile.at root (above ++ [name])).path.toList) :
    (SourceFile.at root (above ++ [name])).shortModule = Text.joinText '.'
      ((SourceFile.at root (above ++ [name])).folders ++
        [(SourceFile.at root (above ++ [name])).stem]) := by
  have hfree : ∀ n ∈ above ++ [name], Dotted.FreeOfSeparators n.shown.toList := by
    intro n hn
    refine ⟨(h n hn).not_mem_shown, fun hmem => hback ?_⟩
    rw [SourceFile.at_eq h]
    show '\\' ∈ (pathOf (above ++ [name])).shown.toList
    rw [shown_pathOf, Text.joinText, String.toList_ofList]
    exact Text.mem_glue_of_mem (List.mem_map_of_mem (List.mem_map_of_mem hn)) hmem
  refine Dotted.dots_joinText_of_free fun part hpart => ?_
  rw [folders_at h] at hpart
  rcases List.mem_append.mp hpart with habove | hstem
  · obtain ⟨n, hn, rfl⟩ := List.mem_map.mp habove
    exact hfree n (List.mem_append_left _ hn)
  · have hname := hfree name (by simp)
    rw [List.mem_singleton.mp hstem, stem, SourceFile.at_eq h]
    exact ⟨fun hc => hname.1 (FilePath.mem_of_mem_stem hc),
      fun hc => hname.2 (FilePath.mem_of_mem_stem hc)⟩

end

/-! ## Short names -/

variable {file : SourceFile}

/-- A character that no extension of the family has and that has no other form in lowercase is in
none of the extensions that the family owns. -/
theorem CutAtDot.not_mem_of_python (h : file.CutAtDot) (hpython : file.language = .python)
    {c : Char} (hself : Text.lowerChar c = c) (hsigma : c ≠ 'Σ') (hdotted : c ≠ 'İ')
    (hc : ∀ e ∈ Language.python.extensions, c ∉ e.toList) : c ∉ file.writtenExtension.toList := by
  intro hmem
  refine hc _ (Language.lower_mem_extensions hpython (by decide)) ?_
  rw [h.extension_eq]
  exact Text.mem_lower hself hsigma hdotted (Text.mem_lower hself hsigma hdotted hmem)

/-- **The short name of a Python file.** -/
theorem CutAtDot.resolve_shortModule_iff (h : file.CutAtDot) (hpython : file.language = .python)
    (source : String) : (Dotted.resolver [file]).resolve source file.shortModule = some file.id ↔
      file.writtenExtension ∈ Language.python.extensions ∨
        ∃ front, front ≠ [] ∧ front <+: Text.splitText '.' file.shortModule ∧
          front <:+ Text.splitText '.' file.shortModule ++ [file.writtenExtension] := by
  have hshort : Dotted.dots file.shortPath = file.shortModule := Dotted.dots_joinText _
  rw [Dotted.resolve_singleton_iff]
  by_cases hext : file.writtenExtension ∈ Language.python.extensions
  · -- the module has all components of its short name, or all but that of a package file
    have hmodule : Dotted.modulePath file.path
        = Dotted.withoutEnding file.shortModule [Dotted.packageFile] := by
      rw [h.path_eq, Dotted.modulePath_of_mem hext, hshort]
    rw [hmodule]
    exact iff_of_true ⟨_, Text.splitText_ne_nil '.' _, Dotted.splitText_withoutEnding_prefix _,
      List.suffix_rfl⟩ (Or.inl hext)
  · have hback : '\\' ∉ file.writtenExtension.toList :=
      h.not_mem_of_python hpython (by decide) (by decide) (by decide) (by decide)
    have hpackage : file.writtenExtension ≠ Dotted.packageFile := by
      intro heq
      have hunderscore : '_' ∉ file.writtenExtension.toList :=
        h.not_mem_of_python hpython (by decide) (by decide) (by decide) (by decide)
      rw [heq] at hunderscore
      exact hunderscore (by decide)
    have hmodule : Text.splitText '.' (Dotted.modulePath file.path)
        = Text.splitText '.' file.shortModule ++ [file.writtenExtension] := by
      rw [h.path_eq, Dotted.modulePath_of_not_mem h.not_mem_dot ⟨h.not_mem_slash, hback⟩ hpackage
        hext, hshort, Text.splitText_append rfl, Text.splitText_of_not_mem h.not_mem_dot]
    rw [hmodule, or_iff_right hext]

/-- A text that ends in the name of an index file has its separator behind its last dot. -/
theorem mem_slash_of_append_index {s t ext : String} (h : s ++ "/index" = t ++ "." ++ ext) :
    '/' ∈ ext.toList := by
  have hlist : s.toList ++ "/index".toList = t.toList ++ '.' :: ext.toList := by
    simpa using congrArg String.toList h
  rcases List.append_eq_append_iff.mp hlist with ⟨mid, -, hmid⟩ | ⟨mid, -, hmid⟩
  · have hdot : '.' ∈ "/index".toList := by
      rw [hmid]
      simp
    exact absurd hdot (by decide)
  · have hslash : '/' ∈ '.' :: ext.toList := by
      rw [hmid]
      simp
    simpa using hslash

/-- **The short name of a script file.** -/
theorem CutAtDot.resolve_shortPath_iff (h : file.CutAtDot) {source target : String}
    (hdot : Text.startsWith target "." = true)
    (hjoin : Relative.joinPath? (Relative.directoryOf source) target = some file.shortPath) :
    (Relative.resolver [file]).resolve source target = some file.id ↔
      file.writtenExtension ∈ Language.script.extensions := by
  have hwritten : ∀ {short e}, e ∈ Language.script.extensions → file.path = short ++ "." ++ e →
      file.writtenExtension ∈ Language.script.extensions := by
    intro short e he hpath
    rw [h.path_eq] at hpath
    rwa [(Dotted.eq_of_append_ending hpath h.not_mem_dot
      (Relative.not_mem_dot_of_mem_extensions he)).2]
  rw [Relative.resolve_singleton_iff hdot hjoin]
  constructor
  · rintro ⟨candidate, hcandidate, hmeans⟩
    -- if nothing is cut off the path, it is the one that is tried, or the index of that
    have hcases : file.writtenExtension ∈ Language.script.extensions ∨
        file.path = candidate ∨ file.path = candidate ++ "/index" := by
      rcases hmeans with hself | ⟨short, ⟨e, he, hpath⟩ | ⟨rfl, -⟩, hshort⟩
      · exact Or.inr (Or.inl hself)
      · exact Or.inl (hwritten he hpath)
      · exact Or.inr hshort
    rcases hcases with hext | hself | hindex
    · exact hext
    · rcases List.mem_cons.mp hcandidate with rfl | hmem
      · have hlength := congrArg String.length (h.path_eq.symm.trans hself)
        have hone : ".".length = 1 := rfl
        rw [String.length_append, String.length_append] at hlength
        omega
      · obtain ⟨e, he, rfl⟩ := List.mem_map.mp hmem
        exact hwritten he hself
    · exact absurd (mem_slash_of_append_index (hindex.symm.trans h.path_eq)) h.not_mem_slash
  · intro hext
    exact ⟨file.shortPath, List.mem_cons_self,
      Or.inr ⟨file.shortPath, Or.inl ⟨_, hext, h.path_eq⟩, Or.inl rfl⟩⟩

end SourceFile

/-- **Where the short name of a file leads.** In every file system a Python or script file of a
repository, if it is the only file of its family, is meant by its name without the extension exactly
if the extension is written as the family has it, apart from what a dotted path means by chance. -/
theorem short_name_leads {tree : FileTree} {root : Place} {settings : DiscoverySettings}
    {file : SourceFile} (h : tree.WellNamed) (hfile : file ∈ repositoryFiles tree root settings) :
    file.LeadsByShortName := by
  obtain ⟨above, name, hnames, rfl⟩ := exists_place_of_mem_discover h hfile
  refine ⟨SourceFile.shortModule_at hnames, fun hpython source => ?_,
    fun hscript source target hdot hjoin => ?_⟩
  · have hcut := SourceFile.cutAtDot_at hnames (by rw [hpython]; decide)
    exact hcut.resolve_shortModule_iff hpython source
  · have hcut := SourceFile.cutAtDot_at hnames (by rw [hscript]; decide)
    exact hcut.resolve_shortPath_iff hdot hjoin

/-! ## Extensions in small letters and in capitals -/

/-- A Python file and a script file with dots in their names. -/
def dottedStems : FileTree :=
  .directory [("repo", .directory
    [("lib", .directory [("db.service.ts", .file []), ("db.util.py", .file [])])])]

theorem repositoryFiles_dottedStems : repositoryFiles dottedStems ["repo"] {} =
    [SourceFile.at ["repo"] ["lib", "db.service.ts"],
      SourceFile.at ["repo"] ["lib", "db.util.py"]] := by
  have hroot : dottedStems.get? ["repo"] = some (.directory
      [("lib", .directory [("db.service.ts", .file []), ("db.util.py", .file [])])]) := rfl
  rw [repositoryFiles, ignoredIn_of_missing hroot (by decide)]
  cbv

/-- Dots in the names of files do no harm. -/
theorem short_name_leads_dottedStems :
    (Dotted.resolver [SourceFile.at ["repo"] ["lib", "db.util.py"]]).resolve "file:main.py"
        "lib.db.util" = some "file:lib/db.util.py" ∧
      (Relative.resolver [SourceFile.at ["repo"] ["lib", "db.service.ts"]]).resolve
        "file:src/pages/home.ts" "../../lib/db.service" = some "file:lib/db.service.ts" := by
  have hpython : (SourceFile.at ["repo"] ["lib", "db.util.py"]).LeadsByShortName :=
    short_name_leads (by decide : dottedStems.WellNamed)
      (by rw [repositoryFiles_dottedStems]; simp)
  have hscript : (SourceFile.at ["repo"] ["lib", "db.service.ts"]).LeadsByShortName :=
    short_name_leads (by decide : dottedStems.WellNamed)
      (by rw [repositoryFiles_dottedStems]; simp)
  refine ⟨?_, ?_⟩
  · have hid : (SourceFile.at ["repo"] ["lib", "db.util.py"]).id = "file:lib/db.util.py" := by cbv
    have hshort : (SourceFile.at ["repo"] ["lib", "db.util.py"]).shortModule = "lib.db.util" := by
      cbv
    have hext : (SourceFile.at ["repo"] ["lib", "db.util.py"]).writtenExtension = "py" := by cbv
    rw [← hid, ← hshort]
    exact (hpython.python (by cbv) _).mpr (Or.inl (by rw [hext]; decide))
  · have hid : (SourceFile.at ["repo"] ["lib", "db.service.ts"]).id
        = "file:lib/db.service.ts" := by cbv
    have hext : (SourceFile.at ["repo"] ["lib", "db.service.ts"]).writtenExtension = "ts" := by
      cbv
    rw [← hid]
    exact (hscript.script (by cbv) _ _ (by cbv) (by cbv)).mpr (by rw [hext]; decide)

/-- A Python file and a script file with extensions in capitals. -/
def capitals : FileTree :=
  .directory [("repo", .directory [("A.PY", .file []), ("B.JS", .file [])])]

theorem repositoryFiles_capitals : repositoryFiles capitals ["repo"] {} =
    [SourceFile.at ["repo"] ["A.PY"], SourceFile.at ["repo"] ["B.JS"]] := by
  have hroot : capitals.get? ["repo"] = some (.directory
      [("A.PY", .file []), ("B.JS", .file [])]) := rfl
  rw [repositoryFiles, ignoredIn_of_missing hroot (by decide)]
  cbv

/-- **A file with an extension in capitals is missed**: neither is `A.PY` meant by `A`, nor `B.JS`
by `./B`, though the first is a Python file and the second a script file. -/
theorem capital_extension_missed :
    repositoryAt capitals [] "/repo" = .ok ["repo"] ∧
      (∃ file ∈ repositoryFiles capitals ["repo"] {}, file.path = "A.PY" ∧
        file.language = .python ∧ Text.joinText '.' (file.folders ++ [file.stem]) = "A" ∧
        (Dotted.resolver [file]).resolve "file:A.PY" "A" = none) ∧
      ∃ file ∈ repositoryFiles capitals ["repo"] {}, file.path = "B.JS" ∧
        file.language = .script ∧
        Relative.joinPath? (Relative.directoryOf "file:B.JS") "./B" = some file.shortPath ∧
        (Relative.resolver [file]).resolve "file:B.JS" "./B" = none := by
  rw [repositoryFiles_capitals]
  refine ⟨by cbv, ⟨SourceFile.at ["repo"] ["A.PY"], by simp, by cbv, by cbv, by cbv, ?_⟩,
    SourceFile.at ["repo"] ["B.JS"], by simp, by cbv, by cbv, by cbv, ?_⟩
  · have hmodule : Dotted.modulePath (SourceFile.at ["repo"] ["A.PY"]).path = "A.PY" := by cbv
    rw [Resolver.BuiltFrom.dotted.resolve_singleton_eq_none_iff, Ne, Dotted.resolve_singleton_iff,
      hmodule]
    rintro ⟨front, hne, hbegin, hend⟩
    have hfront : front = ["A"] := by
      rcases List.prefix_cons_iff.mp hbegin with hnil | ⟨rest, rfl, hrest⟩
      · exact absurd hnil hne
      · rw [List.prefix_nil.mp hrest]
        rfl
    subst hfront
    exact absurd hend (by decide)
  · have hjoin : Relative.joinPath? (Relative.directoryOf "file:B.JS") "./B" = some "B" := by cbv
    have hkeys : Relative.keys (SourceFile.at ["repo"] ["B.JS"]).path = ["B.JS", "B.JS"] := by cbv
    rw [Resolver.BuiltFrom.relative.resolve_singleton_eq_none_iff, Ne,
      Relative.resolve_singleton_iff (by cbv) hjoin]
    simp only [← Relative.mem_keys_iff, hkeys]
    decide

end Cartograph
