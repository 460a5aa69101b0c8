import Cartograph.Proofs.Command.Effects
import Cartograph.Proofs.Fragment.Facts
import Cartograph.Proofs.Service.Boundary
import Cartograph.Proofs.Settings.Layers
import Cartograph.Proofs.Text.Utf8

/-!
# One report, however it is asked for

A repository can be analyzed from the command line, which prints the report or writes it into a
file, over several lines or on one, and over the service. Main statement: with the same settings all
of them hand over the same JSON value (`front_ends_agree`).
-/

namespace Cartograph

open Command Service Text

/-! ## Command lines -/

namespace Command

variable {path : String}

/-- What does not begin with a hyphen is an operand. -/
theorem start_operand (specs : List OptionSpec) (hempty : path ≠ "")
    (hhyphen : path.toList.head? ≠ some '-') : start specs path = .item (.operand path) := by
  have hne : (path : RawText).bytes ≠ [] := fun hnil =>
    hempty (RawText.ofText_injective (congrArg RawText.mk hnil))
  obtain ⟨first, rest, hbytes⟩ := List.exists_cons_of_ne_nil hne
  have hfirst : first ≠ hyphen := by
    rintro rfl
    have hmark : Utf8.asciiChar hyphen = '-' := by decide
    have hhead := RawText.head?_toList_of_head?_bytes (s := path) (by decide : hyphen < 0x80)
      (by rw [hbytes, List.head?_cons])
    exact hhyphen (hmark ▸ hhead)
  rw [start, hbytes]
  exact if_pos hfirst

/-- A path in front of other arguments. -/
theorem readArguments_operand (specs : List OptionSpec) (hempty : path ≠ "")
    (hhyphen : path.toList.head? ≠ some '-') (room : Nat) (given : List String)
    (rest : List RawText) : readArguments specs (room + 1) given ((path : RawText) :: rest)
      = (readArguments specs room given rest).add (.operand path) := by
  rw [readArguments, start_operand specs hempty hhyphen]

/-- The options that ask for a graph on one line, or not. -/
def layoutOptions (compact : Bool) : List RawText :=
  if compact then ["--compact"] else []

/-- The path alone, or with the option for one line behind it. -/
theorem ofArguments?_printing (hempty : path ≠ "") (hhyphen : path.toList.head? ≠ some '-')
    (compact : Bool) :
    Invocation.ofArguments? (("analyze" : RawText) :: (path : RawText) :: layoutOptions compact)
      = some (.analyze path none compact) := by
  have htopic : topicOf? "analyze" = some .analyze := by decide
  rw [Invocation.ofArguments?, htopic]
  simp only [readArguments_operand _ hempty hhyphen]
  cases compact <;> rfl

/-- The same with the option that names a file behind it. -/
theorem ofArguments?_writing (hempty : path ≠ "") (hhyphen : path.toList.head? ≠ some '-')
    (compact : Bool) {out : RawText} (hout : out ≠ "") (hvalue : looksLikeOption out = false) :
    Invocation.ofArguments? (("analyze" : RawText) :: (path : RawText) ::
        (layoutOptions compact ++ [("--output" : RawText), out]))
      = some (.analyze path (some out) compact) := by
  have haccepts : outputOption.with out = .item (.value outputOption.name out) := by
    have : out.isEmpty = false := by
      rw [Bool.eq_false_iff]
      exact fun h => hout (RawText.isEmpty_iff.mp h)
    simp [OptionSpec.with, outputOption, this]
  -- whether the layout was named before or not, the last two arguments are read in the same way
  have hread (given : List String) (hgiven : given.contains outputOption.name = false) :
      readArguments [outputOption, compactOption, helpOption] 0 given ["--output", out]
        = .items [.value outputOption.name out] := by
    have hstart : start [outputOption, compactOption, helpOption] "--output"
        = .pending outputOption := rfl
    rw [readArguments, hstart]
    simp only [hvalue, hgiven, Bool.or_false, haccepts]
    rfl
  have htopic : topicOf? "analyze" = some .analyze := by decide
  rw [Invocation.ofArguments?, htopic]
  simp only [readArguments_operand _ hempty hhyphen]
  cases compact with
  | false =>
      rw [layoutOptions, if_neg Bool.false_ne_true, List.nil_append, hread [] rfl]
      rfl
  | true =>
      have hflag : readArguments [outputOption, compactOption, helpOption] 0 []
          ["--compact", "--output", out]
            = (readArguments [outputOption, compactOption, helpOption] 0 [compactOption.name]
                ["--output", out]).add (.flag compactOption.name) := rfl
      rw [layoutOptions, if_pos rfl, List.singleton_append, hflag, hread _ rfl]
      rfl

end Command

/-! ## What is handed over -/

/-- The text tells a value, and on one line if that is asked for. -/
structure Tells (value : Json) (compact : Bool) (text : String) : Prop where
  reads : Json.read? text = some value
  oneLine : compact = true → ∀ c ∈ text.toList, Json.keepsLine c = true

/-- A report is told in either layout. -/
theorem tells_reportText {report : Report} (h : report.toJson.Readable Json.nestingLimit)
    (compact : Bool) : Tells report.toJson.received compact (reportText report compact) := by
  have hnothing : ∀ c ∈ "".toList, Json.isGap c = true := nofun
  cases compact with
  | true =>
      refine ⟨?_, fun _ c hc => Json.keepsLine_of_mem_compact h.1 hc⟩
      have hread := Json.read?_compact_append h hnothing
      rwa [String.append_empty] at hread
  | false =>
      refine ⟨?_, nofun⟩
      have hread := Json.read?_pretty_append h hnothing
      rwa [String.append_empty] at hread

/-- A report is read with the end of a line behind it. -/
theorem read?_reportText_newline {report : Report}
    (h : report.toJson.Readable Json.nestingLimit) (compact : Bool) :
    Json.read? (reportText report compact ++ "\n") = some report.toJson.received := by
  have hgap : ∀ c ∈ "\n".toList, Json.isGap c = true :=
    List.forall_mem_singleton.mpr rfl
  cases compact with
  | true => exact Json.read?_compact_append h hgap
  | false => exact Json.read?_pretty_append h hgap

/-! ## Front ends -/

section

variable {host : Host} {tree : FileTree} {here root : Place} {env : Environment}
  {settings : Settings} {path : String} {report : Report}

/-- What the front ends make of the repository at a path: one report, and one value that all who
asked for it receive. -/
structure FrontEndsAgree (host : Host) (tree : FileTree) (here : Place) (env : Environment)
    (settings : Settings) (path : String) (report : Report) (value : Json) : Prop where
  analyzed : analyze host tree settings here path = .ok report
  /-- The value is that of the report, as far as numbers fit 64-bit words. -/
  value_eq : report.toJson.Integral → value = report.toJson
  served : ∀ (arguments : List RawText) (port : UInt16),
    Invocation.ofArguments? arguments = some (.serve port) →
      run host tree here env arguments = .serving port settings
  answered : ∀ (home? : Option RawText) (request : Request), request.Poses path →
    answer { host, tree, here, home?, settings } request = success report.toJson ∧
      Tells value true report.toJson.compact
  /-- The report is printed unless that fails. -/
  printed : ∀ (arguments : List RawText) (compact : Bool),
    Invocation.ofArguments? arguments = some (.analyze path none compact) →
      host.printFails (reportText report compact ++ "\n") = false →
        ∃ outcome text, run host tree here env arguments = .ended outcome ∧ outcome.code = 0 ∧
          outcome.printed = text ++ "\n" ∧ Tells value compact text ∧
            Json.read? outcome.printed = some value
  /-- The report is in the file that was to be written unless that fails, even if the user cannot be
  told so. -/
  written : ∀ (arguments : List RawText) (out : RawText) (compact : Bool) (place : Place),
    Invocation.ofArguments? arguments = some (.analyze path (some out) compact) →
      tree.placeToWrite here out = .ok place →
        host.writeFault? place (Utf8.encode (reportText report compact)) = none →
          ∃ outcome text, run host tree here env arguments = .ended outcome ∧
            (host.noteFails (writtenNote report out) = false → outcome.code = 0) ∧
              outcome.tree.readText here out = .ok text.toList ∧ Tells value compact text

/-- A path that needs no trimming and begins with no tilde leads the service where it leads. -/
theorem analyzeRepository_eq (home? : Option RawText)
    (hdirectory : tree.isDirectoryAt here path = true) (htrim : trim path = path)
    (htilde : path.toList.head? ≠ some '~') (hempty : path ≠ "")
    (hreport : analyze host tree settings here path = .ok report) :
    analyzeRepository { host, tree, here, home?, settings } path = success report.toJson := by
  have hafter : afterTilde? path = none := by
    unfold afterTilde?
    split
    · rename_i hlist
      exact absurd (by rw [hlist]; rfl) htilde
    · rename_i hlist
      exact absurd (by rw [hlist]; rfl) htilde
    · rfl
  have hexpand : expandHome home? path = path := by
    unfold expandHome
    rw [hafter]
  unfold analyzeRepository
  simp only [htrim, hexpand, hdirectory, hreport]
  rw [if_neg fun h => hempty (String.isEmpty_iff.mp h)]
  rfl

/-- The directory to which a path leads is not nowhere. -/
theorem ne_empty_of_isDirectoryAt (h : tree.isDirectoryAt here path = true) : path ≠ "" := by
  rintro rfl
  cases h

/-- A written text is read back where it was written. -/
theorem readText_write {faultAt? : Place → List UInt8 → Option FileTree.WriteFault}
    {out : RawText} {text : String}
    (h : (tree.write faultAt? here out (Utf8.encode text)).fault? = none) :
    (tree.write faultAt? here out (Utf8.encode text)).tree.readText here out = .ok text.toList :=
  FileTree.readText_of_readBytes (FileTree.readBytes_write faultAt? h) (Utf8.decode?_encode text)

/-- A command line for an analysis delivers the report on the repository. -/
theorem run_eq_deliver (hsettings : Settings.load tree here env = .ok settings)
    (hreport : analyze host tree settings here path = .ok report) {arguments : List RawText}
    {output : Option RawText} {compact : Bool}
    (hasked : Invocation.ofArguments? arguments = some (.analyze path output compact)) :
    run host tree here env arguments = .ended (deliver host tree here output compact report) := by
  rw [run, hasked]
  simp only [Invocation.run, runAnalyze, hsettings, hreport]

/-- **One report reaches all front ends**, as long as none of its facts is a decimal. -/
theorem frontEndsAgree_of_readable (hsettings : Settings.load tree here env = .ok settings)
    (hreport : analyze host tree settings here path = .ok report)
    (hreadable : report.toJson.Readable Json.nestingLimit)
    (hdirectory : tree.isDirectoryAt here path = true) (htrim : trim path = path)
    (htilde : path.toList.head? ≠ some '~') :
    FrontEndsAgree host tree here env settings path report report.toJson.received where
  analyzed := hreport
  value_eq := Json.received_of_integral
  served := by
    intro arguments port hasked
    rw [run, hasked]
    simp only [Invocation.run, runServe, hsettings]
  answered := by
    intro home? request hposes
    have hempty : path ≠ "" := ne_empty_of_isDirectoryAt hdirectory
    refine ⟨?_, tells_reportText hreadable true⟩
    rw [hposes.answer_eq]
    exact analyzeRepository_eq home? hdirectory htrim htilde hempty hreport
  printed := by
    intro arguments compact hasked hprints
    have hrun := run_eq_deliver hsettings hreport hasked
    simp only [deliver, printing, hprints, Bool.false_eq_true, if_false] at hrun
    -- what is printed is the text and the end of its last line, which is a blank for a reader
    exact ⟨_, _, hrun, rfl, rfl, tells_reportText hreadable compact,
      read?_reportText_newline hreadable compact⟩
  written := by
    intro arguments out compact place hasked hplace hwhole
    have hfine : (tree.write host.writeFault? here out
        (Utf8.encode (reportText report compact))).fault? = none := by
      rw [FileTree.write, hplace]
      simp only [hwhole]
    have hrun := run_eq_deliver hsettings hreport hasked
    simp only [deliver, writing, hfine] at hrun
    refine ⟨_, _, hrun, fun hnotes => ?_, ?_, tells_reportText hreadable compact⟩
    · rw [noting, hnotes, if_neg Bool.false_ne_true]
    · rw [tree_noting]
      exact readText_write hfine

/-- **All front ends agree.** Where the settings can be loaded, a path leads to a repository, there
are workers and the path has no blanks at its ends and begins neither with a tilde nor with a
hyphen, there is one JSON value that the service answers with, that every command line for this path
prints and that every one which names a file to write to leaves in that file, in whatever layout;
the compact layout has no control character and so no second line. Plain command lines for all of
this are among those. -/
theorem front_ends_agree (hsettings : Settings.load tree here env = .ok settings)
    (hroot : repositoryAt tree here path = .ok root)
    (hpool : host.pool settings.extraction.workers = .ok ()) (htrim : trim path = path)
    (htilde : path.toList.head? ≠ some '~') (hhyphen : path.toList.head? ≠ some '-') :
    (∃ report value, FrontEndsAgree host tree here env settings path report value) ∧
      ∀ compact, Invocation.ofArguments?
            (("analyze" : RawText) :: (path : RawText) :: layoutOptions compact)
          = some (.analyze path none compact) ∧
        ∀ out : RawText, out ≠ "" → looksLikeOption out = false →
          Invocation.ofArguments? (("analyze" : RawText) :: (path : RawText) ::
              (layoutOptions compact ++ [("--output" : RawText), out]))
            = some (.analyze path (some out) compact) := by
  have hdirectory := (repositoryAt_eq_ok_iff.mp hroot).1
  have hempty : path ≠ "" := ne_empty_of_isDirectoryAt hdirectory
  have hreport := analyze_eq_ok hroot hpool
  have hreadable := readable_repositoryReport tree settings root
  constructor
  · exact ⟨repositoryReport tree settings root, _,
      frontEndsAgree_of_readable hsettings hreport hreadable hdirectory htrim htilde⟩
  · intro compact
    refine ⟨ofArguments?_printing hempty hhyphen compact, fun out hout hvalue => ?_⟩
    exact ofArguments?_writing hempty hhyphen compact hout hvalue

end

/-! ## A name with quotes -/

/-- A repository with a file whose name and text need escapes. -/
def quotedName : FileTree :=
  .directory [("repo", .directory [
    ("say \"hi\".js", .file (Utf8.encode "app.get('/\\\\\t\u00fc', handler);\n"))])]

/-- The service and a written file tell the same of it. -/
theorem front_ends_agree_quotedName :
    Settings.load quotedName [] [] = .ok {} ∧
      repositoryAt quotedName [] "/repo" = .ok ["repo"] ∧
      (Request.posing "/repo").Poses "/repo" ∧
      ∃ (report : Report) (value : Json) (outcome : Outcome) (text : String),
        answer { host := {}, tree := quotedName, here := [], home? := none, settings := {} }
            (Request.posing "/repo") = success report.toJson ∧
          Json.read? report.toJson.compact = some value ∧
          run {} quotedName [] [] ["analyze", "/repo", "--compact", "--output", "graph.json"]
            = .ended outcome ∧ outcome.code = 0 ∧
          outcome.tree.readText [] "graph.json" = .ok text.toList ∧
          Json.read? text = some value := by
  have hsettings : Settings.load quotedName [] [] = .ok {} := by
    have habsent : quotedName.existsAt [] projectFile = false := by cbv
    rw [Settings.load, settingsFile?, habsent]
    rfl
  have hroot : repositoryAt quotedName [] "/repo" = .ok ["repo"] := by cbv
  have hposes : (Request.posing "/repo").Poses "/repo" := Request.poses_posing (by decide)
  have hplace : quotedName.placeToWrite [] "graph.json" = .ok ["graph.json"] := by cbv
  obtain ⟨⟨report, value, hagree⟩, hlines⟩ :=
    @front_ends_agree {} quotedName [] ["repo"] [] {} "/repo" hsettings hroot rfl (by decide)
      (by decide) (by decide)
  obtain ⟨hanswer, htold⟩ := hagree.answered none _ hposes
  obtain ⟨outcome, text, hrun, hcode, htext, htells⟩ := hagree.written _ _ _ _
    ((hlines true).2 "graph.json" (by decide) (by decide)) hplace rfl
  exact ⟨hsettings, hroot, hposes, report, value, outcome, text, hanswer, htold.reads, hrun,
    hcode rfl, htext, htells.reads⟩

end Cartograph
