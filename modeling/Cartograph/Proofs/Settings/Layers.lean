import Cartograph.Proofs.Discovery
import Cartograph.Settings.Layers
import Mathlib

/-!
# Which source a setting comes from

A source of settings sets some of them and is silent about the others (`Layer`). The variables of
the environment are laid over the file that counts, setting by setting, and that file over the
defaults (`load_layered`). The files themselves are not laid over each other: where the project has
a file, that of the user is not looked at, even for settings about which the project's file is
silent (`user_file_passed_over`).
-/

namespace Cartograph

open Json

/-! ## Layers -/

/-- What one source of settings sets. -/
structure Layer where
  skippedDirectories : Option (List String) := none
  skipsHidden : Option Bool := none
  binaryExtensions : Option (List String) := none
  heedsIgnoreFile : Option Bool := none
  readLimit : Option UInt64 := none
  workers : Option UInt64 := none
  deriving DecidableEq, Inhabited, Repr

namespace Layer

/-- The upper layer counts where it sets something, and the lower one elsewhere. -/
def above (upper lower : Layer) : Layer where
  skippedDirectories := upper.skippedDirectories.or lower.skippedDirectories
  skipsHidden := upper.skipsHidden.or lower.skipsHidden
  binaryExtensions := upper.binaryExtensions.or lower.binaryExtensions
  heedsIgnoreFile := upper.heedsIgnoreFile.or lower.heedsIgnoreFile
  readLimit := upper.readLimit.or lower.readLimit
  workers := upper.workers.or lower.workers

/-- The settings of a layer, with the default wherever it is silent. -/
def settings (layer : Layer) : Settings where
  discovery := {
    skippedDirectories := layer.skippedDirectories.getD usualSkippedDirectories
    skipsHidden := layer.skipsHidden.getD true
    binaryExtensions := layer.binaryExtensions.getD usualBinaryExtensions
    heedsIgnoreFile := layer.heedsIgnoreFile.getD true }
  extraction := {
    readLimit := layer.readLimit.getD 50000
    workers := layer.workers.getD 0 }

/-- The value of a key, by name in an object and by place in an array. -/
def valueOf? (key : String) (place : Nat) : Json → Option Json
  | .obj members => member? key members
  | .arr items => items[place]?
  | _ => none

/-- What a document sets: the values of keys in two groups. -/
def ofJson (document : Json) : Layer where
  skippedDirectories :=
    ((valueOf? "discovery" 0 document).bind (valueOf? "skip_dirs" 0)).bind (listOf? string?)
  skipsHidden :=
    ((valueOf? "discovery" 0 document).bind (valueOf? "skip_hidden_dirs" 1)).bind bool?
  binaryExtensions :=
    ((valueOf? "discovery" 0 document).bind (valueOf? "binary_extensions" 2)).bind (listOf? string?)
  heedsIgnoreFile :=
    ((valueOf? "discovery" 0 document).bind (valueOf? "respect_gitignore" 3)).bind bool?
  readLimit :=
    ((valueOf? "extraction" 1 document).bind (valueOf? "generic_read_limit" 0)).bind word64?
  workers := ((valueOf? "extraction" 1 document).bind (valueOf? "threads" 1)).bind word64?

/-- What the variables of the environment set. -/
def ofEnvironment (env : Environment) : Layer where
  heedsIgnoreFile := (env.get? heedsVariable).bind flagOf?
  readLimit := (env.get? readLimitVariable).bind wordOf?
  workers := (env.get? workersVariable).bind wordOf?

end Layer

/-! ## Documents -/

section

variable {surplus : Bool} {value : Json}

/-- A field that can be read has the value that is given for it, or else its default. -/
theorem eq_getD_of_fieldOr {α : Type} {fallback v : α} {read : Json → Option α}
    {given : Option Json} (h : fieldOr fallback read given = some v) :
    v = (given.bind read).getD fallback := by
  cases given with
  | none => exact (Option.some.inj h).symm
  | some json =>
      have hread : read json = some v := h
      rw [Option.bind_some, hread, Option.getD_some]

/-- The fields of a group are the values of its keys, in their order. -/
theorem eq_map_of_fieldsOf? {keys : List String} {fields : List (Option Json)}
    (h : fieldsOf? surplus keys value = some fields) :
    fields = keys.mapIdx fun i key => Layer.valueOf? key i value := by
  cases value with
  | obj members =>
      obtain rfl := Option.some.inj h
      refine List.ext_getElem (by simp) fun i _ _ => ?_
      simp [Layer.valueOf?]
  | arr items =>
      simp only [fieldsOf?] at h
      split at h
      · obtain rfl := Option.some.inj h
        refine List.ext_getElem (by simp) fun i _ _ => ?_
        simp [Layer.valueOf?]
      · cases h
  | _ => cases h

theorem DiscoverySettings.eq_of_ofJson? {settings : DiscoverySettings}
    (h : DiscoverySettings.ofJson? surplus value = some settings) : settings = {
      skippedDirectories :=
        ((Layer.valueOf? "skip_dirs" 0 value).bind (listOf? string?)).getD usualSkippedDirectories
      skipsHidden := ((Layer.valueOf? "skip_hidden_dirs" 1 value).bind bool?).getD true
      binaryExtensions := ((Layer.valueOf? "binary_extensions" 2 value).bind
        (listOf? string?)).getD usualBinaryExtensions
      heedsIgnoreFile := ((Layer.valueOf? "respect_gitignore" 3 value).bind bool?).getD true } := by
  simp only [DiscoverySettings.ofJson?, Option.bind_eq_bind, Option.bind_eq_some_iff] at h
  obtain ⟨fields, hfields, h⟩ := h
  rw [eq_map_of_fieldsOf? hfields] at h
  simp only [List.mapIdx_cons, List.mapIdx_nil] at h
  simp only [Option.pure_def, Option.bind_eq_some_iff, Option.some.injEq] at h
  obtain ⟨skipped, hskipped, hidden, hhidden, binary, hbinary, heeds, hheeds, rfl⟩ := h
  rw [eq_getD_of_fieldOr hskipped, eq_getD_of_fieldOr hhidden, eq_getD_of_fieldOr hbinary,
    eq_getD_of_fieldOr hheeds]

theorem ExtractionSettings.eq_of_ofJson? {settings : ExtractionSettings}
    (h : ExtractionSettings.ofJson? surplus value = some settings) : settings = {
      readLimit := ((Layer.valueOf? "generic_read_limit" 0 value).bind word64?).getD 50000
      workers := ((Layer.valueOf? "threads" 1 value).bind word64?).getD 0 } := by
  simp only [ExtractionSettings.ofJson?, Option.bind_eq_bind, Option.bind_eq_some_iff] at h
  obtain ⟨fields, hfields, h⟩ := h
  rw [eq_map_of_fieldsOf? hfields] at h
  simp only [List.mapIdx_cons, List.mapIdx_nil] at h
  simp only [Option.pure_def, Option.bind_eq_some_iff, Option.some.injEq] at h
  obtain ⟨limit, hlimit, workers, hworkers, rfl⟩ := h
  rw [eq_getD_of_fieldOr hlimit, eq_getD_of_fieldOr hworkers]

/-- **The settings that a document states** are those of its layer. -/
theorem Settings.eq_of_ofJson? {settings : Settings}
    (h : Settings.ofJson? surplus value = some settings) :
    settings = (Layer.ofJson value).settings := by
  simp only [Settings.ofJson?, Option.bind_eq_bind, Option.bind_eq_some_iff] at h
  obtain ⟨fields, hfields, h⟩ := h
  rw [eq_map_of_fieldsOf? hfields] at h
  simp only [List.mapIdx_cons, List.mapIdx_nil] at h
  simp only [Option.pure_def, Option.bind_eq_some_iff, Option.some.injEq] at h
  obtain ⟨discovery, hdiscovery, extraction, hextraction, rfl⟩ := h
  have hd : discovery = (Layer.ofJson value).settings.discovery := by
    simp only [Layer.ofJson, Layer.settings]
    cases hgroup : Layer.valueOf? "discovery" 0 value with
    | none =>
        rw [hgroup] at hdiscovery
        exact (Option.some.inj hdiscovery).symm
    | some group =>
        rw [hgroup] at hdiscovery
        exact DiscoverySettings.eq_of_ofJson? hdiscovery
  have he : extraction = (Layer.ofJson value).settings.extraction := by
    simp only [Layer.ofJson, Layer.settings]
    cases hgroup : Layer.valueOf? "extraction" 1 value with
    | none =>
        rw [hgroup] at hextraction
        exact (Option.some.inj hextraction).symm
    | some group =>
        rw [hgroup] at hextraction
        exact ExtractionSettings.eq_of_ofJson? hextraction
  rw [hd, he]

end

/-! ## Environment -/

/-- Every variable that is set has a value that can be used. -/
structure Environment.Valid (env : Environment) : Prop where
  readLimit : ∀ raw, env.get? readLimitVariable = some raw → (wordOf? raw).isSome = true
  workers : ∀ raw, env.get? workersVariable = some raw → (wordOf? raw).isSome = true
  heeds : ∀ raw, env.get? heedsVariable = some raw → (flagOf? raw).isSome = true

/-- A variable that can be used changes its setting if it is set. -/
theorem Settings.override_eq_ok {α : Type} {env : Environment} {name : String}
    {read : String → Option α} (set : Settings → α → Settings) (settings : Settings)
    (h : ∀ raw, env.get? name = some raw → (read raw).isSome = true) :
    settings.override env name read set
      = .ok (((env.get? name).bind read).elim settings (set settings)) := by
  unfold Settings.override
  cases hraw : env.get? name with
  | none => rfl
  | some raw =>
      obtain ⟨value, hvalue⟩ := Option.isSome_iff_exists.mp (h raw hraw)
      simp only [hvalue, Option.bind_some]
      rfl

/-- **The environment is laid over any layer**, setting by setting. -/
theorem Layer.overridden_settings {env : Environment} (h : env.Valid) (layer : Layer) :
    layer.settings.overridden env = .ok ((ofEnvironment env).above layer).settings := by
  simp only [Settings.overridden, Settings.override_eq_ok _ _ h.readLimit,
    Settings.override_eq_ok _ _ h.workers, Settings.override_eq_ok _ _ h.heeds, bind, Except.bind]
  simp only [ofEnvironment, above]
  cases (env.get? readLimitVariable).bind wordOf? <;>
    cases (env.get? workersVariable).bind wordOf? <;>
      cases (env.get? heedsVariable).bind flagOf? <;> rfl

/-! ## Files -/

/-- What the settings file at a path supplies: nothing if there is no such path or nothing is there,
and otherwise the layer of its document. -/
inductive Supplies (tree : FileTree) (here : Place) : Option RawText → Option Layer → Prop
  | nowhere : Supplies tree here none none
  | absent {path : RawText} (h : tree.existsAt here path = false) :
      Supplies tree here (some path) none
  | file {path : RawText} {text : List Char} {document : Toml} {settings : Settings}
      (hread : tree.readText here path = .ok text) (hdocument : Toml.read? text = some document)
      (hvalid : Settings.ofJson? true document.toJson = some settings) :
      Supplies tree here (some path) (some (Layer.ofJson document.toJson))

section

variable {tree : FileTree} {here : Place} {env : Environment} {path : RawText}

/-- A text that can be read is there. -/
theorem FileTree.existsAt_of_readText {text : List Char}
    (h : tree.readText here path = .ok text) : tree.existsAt here path = true := by
  cases hresolve : tree.resolve here path with
  | ok found => rw [FileTree.existsAt, hresolve]; rfl
  | error cause =>
      rw [FileTree.readText, FileTree.readBytes, hresolve] at h
      cases h

theorem FileTree.readText_of_readBytes {bytes : List UInt8} {text : List Char}
    (hbytes : tree.readBytes here path = .ok bytes) (htext : Text.Utf8.decode? bytes = some text) :
    tree.readText here path = .ok text := by
  simp only [readText, hbytes, bind, Except.bind, htext]
  rfl

/-- **A file is read by its name** from the directory that holds it. -/
theorem FileTree.readBytes_name {name : RawText} {bytes : List UInt8}
    (hrelative : FilePath.isAbsolute name = false) (hparts : pathParts name = [name])
    (hsize : name.size < pathLimit) (hplain : Plain name)
    (hbytes : tree.get? (here ++ [name]) = some (.file bytes)) :
    tree.readBytes here name = .ok bytes := by
  have hname : name.isEmpty = false := by
    rw [Bool.eq_false_iff]
    exact fun hempty => hplain.ne_empty (RawText.isEmpty_iff.mp hempty)
  have hlocate : tree.locate here name = .ok (here ++ [name]) := by
    rw [locate, hname, if_neg Bool.false_ne_true, if_neg (Nat.not_le.mpr hsize), startOf, hrelative,
      if_neg Bool.false_ne_true, hparts]
    exact locateFrom_eq_ok linkLimit (by simpa using hplain) (fun _ _ => rfl) hbytes
      (fun _ => FileTree.noConfusion)
  rw [readBytes, resolve_eq_ok_iff.mpr ⟨hlocate, hbytes⟩]

/-- A valid file gives its own layer under that of the environment. -/
theorem Settings.ofFile_of_supplies {layer : Layer} (henv : env.Valid)
    (h : Supplies tree here (some path) (some layer)) :
    Settings.ofFile tree here env path
      = .ok ((Layer.ofEnvironment env).above layer).settings := by
  cases h with
  | @file _ text document settings hread hdocument hvalid =>
      have htext : Settings.ofText? text = some (Layer.ofJson document.toJson).settings := by
        rw [Settings.ofText?, hdocument, Option.bind_some, hvalid, ← Settings.eq_of_ofJson? hvalid]
      rw [Settings.ofFile, hread]
      simp only [htext]
      exact Layer.overridden_settings henv _

theorem Supplies.existsAt_eq {layer : Option Layer} (h : Supplies tree here (some path) layer) :
    tree.existsAt here path = layer.isSome := by
  cases h with
  | absent habsent => exact habsent
  | file hread _ _ => exact FileTree.existsAt_of_readText hread

/-- The file of the project is all that counts beside the environment. -/
theorem Settings.load_of_project {layer : Layer} (henv : env.Valid)
    (hproject : Supplies tree here (some projectFile) (some layer)) :
    Settings.load tree here env = .ok ((Layer.ofEnvironment env).above layer).settings := by
  rw [Settings.load, settingsFile?, hproject.existsAt_eq]
  exact Settings.ofFile_of_supplies henv hproject

/-- **The environment, then one file, then the defaults.** Whatever valid files the project and the
user have, if any, and whatever usable values the variables of the environment have, each setting
comes from the environment if its variable is set, or else from the file that counts if that sets
it, and otherwise has its default. The file that counts is that of the project, or that of the user
where the project has none. -/
theorem load_layered {project user : Option Layer} (henv : env.Valid)
    (hproject : Supplies tree here (some projectFile) project)
    (huser : Supplies tree here (userFile? env) user) :
    Settings.load tree here env
      = .ok ((Layer.ofEnvironment env).above ((project.or user).getD {})).settings := by
  cases project with
  | some layer => exact Settings.load_of_project henv hproject
  | none =>
      rw [Settings.load, settingsFile?, hproject.existsAt_eq, Option.none_or]
      cases hpath : userFile? env with
      | none =>
          rw [hpath] at huser
          cases huser
          exact Layer.overridden_settings henv {}
      | some path =>
          rw [hpath] at huser
          rw [Option.isSome_none, if_neg Bool.false_ne_true, Option.filter_some,
            huser.existsAt_eq]
          cases user with
          | some layer => exact Settings.ofFile_of_supplies henv huser
          | none => exact Layer.overridden_settings henv {}

end

/-! ## Where both files are there -/

/-- A place with both settings files, each of which sets something that the other does not. -/
def bothFiles : FileTree :=
  .directory [
    ("home", .directory [(".config", .directory [("landscape", .directory [
      ("config.toml", .file (Text.Utf8.encode "[extraction]\ngeneric_read_limit = 1024\n"))])])]),
    ("repo", .directory [
      ("landscape.toml", .file (Text.Utf8.encode "[extraction]\nthreads = 2\n"))])]

/-- The environment of a user who wants no ignore file to count. -/
def unheeding : Environment :=
  [("HOME", "/home"), ("LANDSCAPE_RESPECT_GITIGNORE", "off")]

theorem get?_unheeding_heeds : unheeding.get? heedsVariable = some "off" := by
  cbv

theorem unheeding_valid : unheeding.Valid where
  readLimit raw h := by cases h
  workers raw h := by cases h
  heeds raw h := by
    obtain rfl : "off" = raw := Option.some.inj (get?_unheeding_heeds.symm.trans h)
    decide

theorem userFile?_unheeding :
    userFile? unheeding = some ("/home/.config/landscape/config.toml" : RawText) := by
  have hconfig : FilePath.join "/home" ".config" = "/home/.config" := by decide
  have hfile : FilePath.join "/home/.config" "landscape/config.toml"
      = "/home/.config/landscape/config.toml" := by decide
  have hhome : Environment.home? unheeding = some ("/home" : RawText) := by decide
  have hxdg : Environment.raw? unheeding "XDG_CONFIG_HOME" = none := by decide
  rw [userFile?, Environment.configDirectory?, hxdg, Option.filter_none, hhome]
  simp only [Option.map_some, hconfig, hfile]

/-- The text of the file of the project. -/
def projectText : List Char :=
  "[extraction]\nthreads = 2\n".toList

theorem readText_projectFile : bothFiles.readText ["repo"] projectFile = .ok projectText := by
  have hbytes : bothFiles.readBytes ["repo"] projectFile
      = .ok (Text.Utf8.encode "[extraction]\nthreads = 2\n") :=
    FileTree.readBytes_name (by decide) (by cbv) (by decide) (by decide) (by cbv)
  exact FileTree.readText_of_readBytes hbytes (by cbv)

theorem read?_projectText :
    Toml.read? projectText = some (.table [("extraction", .table [("threads", .int 2)])]) := by
  cbv

theorem ofJson?_projectText :
    Settings.ofJson? true (.obj [("extraction", .obj [("threads", .int 2)])])
      = some { extraction := { workers := 2 } } := by
  cbv

theorem project_supplies :
    Supplies bothFiles ["repo"] (some projectFile) (some { workers := some 2 }) := by
  have hlayer : Layer.ofJson (.obj [("extraction", .obj [("threads", .int 2)])])
      = { workers := some 2 } := by cbv
  rw [← hlayer]
  exact .file readText_projectFile read?_projectText ofJson?_projectText

theorem user_supplies :
    Supplies bothFiles ["repo"] (userFile? unheeding) (some { readLimit := some 1024 }) := by
  have hparts : FileTree.pathParts "/home/.config/landscape/config.toml"
      = ("" : RawText) :: ["home", ".config", "landscape", "config.toml"] := by cbv
  have hbytes : bothFiles.readBytes ["repo"] "/home/.config/landscape/config.toml"
      = .ok (Text.Utf8.encode "[extraction]\ngeneric_read_limit = 1024\n") :=
    FileTree.readBytes_eq_ok (by decide) hparts (by decide) (by decide) (by decide) (by cbv) _
  have hread : bothFiles.readText ["repo"] "/home/.config/landscape/config.toml"
      = .ok "[extraction]\ngeneric_read_limit = 1024\n".toList :=
    FileTree.readText_of_readBytes hbytes (by cbv)
  have hdocument : Toml.read? "[extraction]\ngeneric_read_limit = 1024\n".toList
      = some (.table [("extraction", .table [("generic_read_limit", .int 1024)])]) := by cbv
  have hvalid : Settings.ofJson? true
      (.obj [("extraction", .obj [("generic_read_limit", .int 1024)])])
        = some { extraction := { readLimit := 1024 } } := by cbv
  have hlayer : Layer.ofJson (.obj [("extraction", .obj [("generic_read_limit", .int 1024)])])
      = { readLimit := some 1024 } := by cbv
  rw [userFile?_unheeding, ← hlayer]
  exact .file hread hdocument hvalid

/-- The file of the project counts as a whole, under the environment. -/
theorem load_layered_bothFiles :
    unheeding.Valid ∧
      Supplies bothFiles ["repo"] (some projectFile) (some { workers := some 2 }) ∧
      Supplies bothFiles ["repo"] (userFile? unheeding) (some { readLimit := some 1024 }) ∧
      Settings.load bothFiles ["repo"] unheeding
        = .ok { discovery := { heedsIgnoreFile := false }, extraction := { workers := 2 } } := by
  refine ⟨unheeding_valid, project_supplies, user_supplies, ?_⟩
  rw [load_layered unheeding_valid project_supplies user_supplies, Layer.ofEnvironment,
    get?_unheeding_heeds]
  rfl

/-- **The file of the user is passed over** where the project has one: it does not even set what
the file of the project leaves open. -/
theorem user_file_passed_over :
    ¬ ∀ (tree : FileTree) (here : Place) (env : Environment) (project user : Option Layer),
      env.Valid → Supplies tree here (some projectFile) project →
        Supplies tree here (userFile? env) user →
          Settings.load tree here env = .ok ((Layer.ofEnvironment env).above
            ((project.getD {}).above (user.getD {}))).settings := by
  intro h
  have hlayered := h _ _ _ _ _ unheeding_valid project_supplies user_supplies
  rw [Settings.load_of_project unheeding_valid project_supplies] at hlayered
  have hlimit : (50000 : UInt64) = 1024 :=
    congrArg (fun settings => settings.extraction.readLimit) (Except.ok.inj hlayered)
  exact absurd hlimit (by decide)

end Cartograph
