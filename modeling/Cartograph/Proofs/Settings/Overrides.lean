import Cartograph.Proofs.Imports.Tables
import Cartograph.Proofs.Settings.Layers
import Cartograph.Proofs.Text.Values

/-!
# What variables override

Three variables of the environment override settings of a file. A variable that is set has to have a
value that can be used: a number of 64 bits for two of them, a word for yes or no for the third.
Main statement: the settings that a file states are changed by the variables that are set and in
nothing else, or the first variable that cannot be used is reported; a file that states no settings
is reported whatever the environment is (`ofFile_exact`).
-/

namespace Cartograph

open Text

/-! ## Values of variables -/

/-- The text is a numeral of the number. -/
def DenotesWord (raw : String) (value : UInt64) : Prop :=
  ∃ ds, Decimal.IsNumeral raw ds ∧ Decimal.placeValue ds = value.toNat

/-- The text is one of the words for the answer. -/
def DenotesFlag (raw : String) (answer : Bool) : Prop :=
  Says (if answer then yesWords else noWords) raw

theorem wordOf?_eq_some_iff {raw : String} {value : UInt64} :
    wordOf? raw = some value ↔ DenotesWord raw value := by
  simp only [wordOf?, Option.map_eq_some_iff, Decimal.below?_eq_some_iff, DenotesWord]
  constructor
  · rintro ⟨n, ⟨ds, hnumeral, rfl, hbound⟩, rfl⟩
    exact ⟨ds, hnumeral, (UInt64.toNat_ofNat_of_lt' hbound).symm⟩
  · rintro ⟨ds, hnumeral, hvalue⟩
    exact ⟨value.toNat, ⟨ds, hnumeral, hvalue, value.toNat_lt_size⟩, UInt64.ofNat_toNat⟩

/-- The words for yes and no have no white space in them. -/
theorem not_blank_of_mem_words : ∀ word ∈ yesWords ++ noWords, ∀ c ∈ word.toList,
    isBlank c = false := by
  simp [yesWords, noWords, isBlank]

theorem flagOf?_eq_some_iff {raw : String} {answer : Bool} :
    flagOf? raw = some answer ↔ DenotesFlag raw answer := by
  have hyes : asciiLowercase (trim raw) ∈ yesWords ↔ Says yesWords raw :=
    asciiLowercase_trim_mem_iff fun word hword =>
      not_blank_of_mem_words word (List.mem_append_left _ hword)
  have hno : asciiLowercase (trim raw) ∈ noWords ↔ Says noWords raw :=
    asciiLowercase_trim_mem_iff fun word hword =>
      not_blank_of_mem_words word (List.mem_append_right _ hword)
  -- no word stands for both answers
  have hapart : ∀ word ∈ yesWords, word ∉ noWords := by decide
  simp only [flagOf?, DenotesFlag, List.contains_iff_mem]
  cases answer with
  | true =>
      rw [if_pos rfl, ← hyes]
      split_ifs with h <;> simp [h]
  | false =>
      rw [if_neg Bool.false_ne_true, ← hno]
      split_ifs with h h'
      · simp [hapart _ h]
      · simp [h']
      · simp [h']

/-! ## One variable -/

theorem bind_eq_ok_iff {ε α β : Type} {x : Except ε α} {f : α → Except ε β} {b : β} :
    (x >>= f) = .ok b ↔ ∃ a, x = .ok a ∧ f a = .ok b := by
  cases x <;> simp [bind, Except.bind]

theorem bind_eq_error_iff {ε α β : Type} {x : Except ε α} {f : α → Except ε β} {e : ε} :
    (x >>= f) = .error e ↔ x = .error e ∨ ∃ a, x = .ok a ∧ f a = .error e := by
  cases x <;> simp [bind, Except.bind]

section

variable {α : Type} {env : Environment} {name : String} {read : String → Option α}
  {Denotes : String → α → Prop} {set : Settings → α → Settings} {settings : Settings}

/-- What the variable denotes if it is set, and what was there before otherwise. -/
def Chosen (env : Environment) (name : String) (Denotes : String → α → Prop) (before now : α) :
    Prop :=
  match env.get? name with
  | none => now = before
  | some raw => Denotes raw now

theorem override_eq_ok_iff (hread : ∀ raw value, read raw = some value ↔ Denotes raw value)
    {before : α} (hbefore : set settings before = settings) {after : Settings} :
    settings.override env name read set = .ok after ↔
      ∃ now, Chosen env name Denotes before now ∧ after = set settings now := by
  unfold Settings.override Chosen
  cases env.get? name with
  | none => simp [hbefore, eq_comm]
  | some raw =>
      simp only [← hread]
      cases read raw with
      | none => simp
      | some value => simp [eq_comm]

end

/-! ## All variables -/

/-- A variable that overrides a setting, and the values for it that can be used. -/
structure OverridingVariable where
  name : String
  Usable : String → Prop

/-- What overrides the read limit. -/
def readLimitOverride : OverridingVariable where
  name := readLimitVariable
  Usable raw := ∃ value, DenotesWord raw value

/-- What overrides the number of workers. -/
def workersOverride : OverridingVariable where
  name := workersVariable
  Usable raw := ∃ value, DenotesWord raw value

/-- What overrides whether the ignore file counts. -/
def heedsOverride : OverridingVariable where
  name := heedsVariable
  Usable raw := ∃ answer, DenotesFlag raw answer

/-- The variables in the order in which they are looked at. -/
def overridingVariables : List OverridingVariable :=
  [readLimitOverride, workersOverride, heedsOverride]

/-- The variable is set to a value that cannot be used. -/
def Unusable (env : Environment) (v : OverridingVariable) : Prop :=
  ∃ raw, env.get? v.name = some raw ∧ ¬ v.Usable raw

/-- The error names the first of the variables that cannot be used, with its value. -/
def Reports (env : Environment) (vs : List OverridingVariable) (error : SettingsError) : Prop :=
  ∃ v raw, FirstWith (Unusable env) vs v ∧ env.get? v.name = some raw ∧
    error = .invalid v.name raw

/-- The settings have what the variables that are set denote, and otherwise they are as before. -/
structure Overrides (env : Environment) (before now : Settings) : Prop where
  readLimit : Chosen env readLimitVariable DenotesWord before.extraction.readLimit
    now.extraction.readLimit
  workers : Chosen env workersVariable DenotesWord before.extraction.workers
    now.extraction.workers
  heeds : Chosen env heedsVariable DenotesFlag before.discovery.heedsIgnoreFile
    now.discovery.heedsIgnoreFile
  skippedDirectories : now.discovery.skippedDirectories = before.discovery.skippedDirectories
  skipsHidden : now.discovery.skipsHidden = before.discovery.skipsHidden
  binaryExtensions : now.discovery.binaryExtensions = before.discovery.binaryExtensions

/-- The outcome is the settings with what the environment overrides, unless a variable cannot be
used. -/
structure OverriddenBy (env : Environment) (before : Settings)
    (outcome : Except SettingsError Settings) : Prop where
  ok_iff : ∀ now, outcome = .ok now ↔ Overrides env before now
  isOk_iff : (∃ now, outcome = .ok now) ↔ ∀ v ∈ overridingVariables, ¬ Unusable env v
  error_iff : ∀ error, outcome = .error error ↔ Reports env overridingVariables error

section

variable {env : Environment} {before : Settings}

theorem overridden_eq_ok_iff {now : Settings} :
    before.overridden env = .ok now ↔ Overrides env before now := by
  have hreadLimit (s : Settings) {after : Settings} :
      s.override env readLimitVariable wordOf? Settings.withReadLimit = .ok after ↔
        ∃ limit, Chosen env readLimitVariable DenotesWord s.extraction.readLimit limit ∧
          after = s.withReadLimit limit :=
    override_eq_ok_iff (fun _ _ => wordOf?_eq_some_iff) rfl
  have hworkers (s : Settings) {after : Settings} :
      s.override env workersVariable wordOf? Settings.withWorkers = .ok after ↔
        ∃ workers, Chosen env workersVariable DenotesWord s.extraction.workers workers ∧
          after = s.withWorkers workers :=
    override_eq_ok_iff (fun _ _ => wordOf?_eq_some_iff) rfl
  have hheeds (s : Settings) {after : Settings} :
      s.override env heedsVariable flagOf? Settings.withHeeding = .ok after ↔
        ∃ heeds, Chosen env heedsVariable DenotesFlag s.discovery.heedsIgnoreFile heeds ∧
          after = s.withHeeding heeds :=
    override_eq_ok_iff (fun _ _ => flagOf?_eq_some_iff) rfl
  rw [Settings.overridden]
  simp only [bind_eq_ok_iff, hreadLimit, hworkers, hheeds]
  constructor
  · rintro ⟨_, ⟨limit, hlimit, rfl⟩, _, ⟨workers, hworkers, rfl⟩, heeds, hheeds, rfl⟩
    exact ⟨hlimit, hworkers, hheeds, rfl, rfl, rfl⟩
  · rintro ⟨hlimit, hworkers, hheeds, hskipped, hhidden, hbinary⟩
    refine ⟨_, ⟨_, hlimit, rfl⟩, _, ⟨_, hworkers, rfl⟩, _, hheeds, ?_⟩
    -- what the variables have chosen and the rest make up all of the settings
    obtain ⟨⟨skipped, hidden, binary, heeds⟩, extraction⟩ := now
    cases hskipped
    cases hhidden
    cases hbinary
    rfl

/-- Later variables are reported only if the first one can be used. -/
theorem reports_cons_iff {v : OverridingVariable} {vs : List OverridingVariable}
    {error : SettingsError} : Reports env (v :: vs) error ↔
      (∃ raw, env.get? v.name = some raw ∧ ¬ v.Usable raw ∧ error = .invalid v.name raw) ∨
        ¬ Unusable env v ∧ Reports env vs error := by
  constructor
  · rintro ⟨w, raw, hfirst, hraw, rfl⟩
    rcases firstWith_cons_iff.mp hfirst with ⟨⟨bad, hbad, hunusable⟩, rfl⟩ | ⟨hv, hlater⟩
    · obtain rfl : bad = raw := Option.some.inj (hbad.symm.trans hraw)
      exact Or.inl ⟨bad, hraw, hunusable, rfl⟩
    · exact Or.inr ⟨hv, w, raw, hlater, hraw, rfl⟩
  · rintro (⟨raw, hraw, hunusable, rfl⟩ | ⟨hv, w, raw, hlater, hraw, rfl⟩)
    · exact ⟨v, raw, firstWith_cons_iff.mpr (Or.inl ⟨⟨raw, hraw, hunusable⟩, rfl⟩), hraw, rfl⟩
    · exact ⟨w, raw, firstWith_cons_iff.mpr (Or.inr ⟨hv, hlater⟩), hraw, rfl⟩

theorem not_reports_nil {error : SettingsError} : ¬ Reports env [] error := by
  rintro ⟨v, -, hfirst, -⟩
  exact not_firstWith_nil hfirst

/-- **One variable is looked at before the others**: it is reported itself, or it can be used and
what comes after it is reported. -/
theorem override_bind_eq_error_iff {α : Type} {v : OverridingVariable}
    {vs : List OverridingVariable} {read : String → Option α}
    (hread : ∀ raw, (∃ value, read raw = some value) ↔ v.Usable raw)
    (set : Settings → α → Settings) {rest : Settings → Except SettingsError Settings}
    {error : SettingsError} (hrest : ∀ s, rest s = .error error ↔ Reports env vs error)
    (settings : Settings) :
    (settings.override env v.name read set >>= rest) = .error error ↔
      Reports env (v :: vs) error := by
  have herror : settings.override env v.name read set = .error error ↔
      ∃ raw, env.get? v.name = some raw ∧ ¬ v.Usable raw ∧ error = .invalid v.name raw := by
    unfold Settings.override
    cases env.get? v.name with
    | none => simp
    | some raw =>
        simp only [← hread, Option.some.injEq, exists_eq_left']
        cases read raw <;> simp [eq_comm]
  have hok : (∃ after, settings.override env v.name read set = .ok after) ↔
      ¬ Unusable env v := by
    unfold Settings.override Unusable
    cases env.get? v.name with
    | none => simp
    | some raw =>
        simp only [← hread, Option.some.injEq, exists_eq_left']
        cases read raw <;> simp
  rw [bind_eq_error_iff, reports_cons_iff]
  simp only [hrest, exists_and_right]
  rw [herror, hok]

theorem overridden_eq_error_iff {error : SettingsError} :
    before.overridden env = .error error ↔ Reports env overridingVariables error := by
  have hreadLimit : ∀ raw, (∃ value, wordOf? raw = some value) ↔ readLimitOverride.Usable raw :=
    fun raw => exists_congr fun value => wordOf?_eq_some_iff
  have hworkers : ∀ raw, (∃ value, wordOf? raw = some value) ↔ workersOverride.Usable raw :=
    fun raw => exists_congr fun value => wordOf?_eq_some_iff
  have hheeds : ∀ raw, (∃ answer, flagOf? raw = some answer) ↔ heedsOverride.Usable raw :=
    fun raw => exists_congr fun answer => flagOf?_eq_some_iff
  have hnone : ∀ s : Settings, (pure s : Except SettingsError Settings) = .error error ↔
      Reports env [] error := fun s => iff_of_false nofun not_reports_nil
  have hsteps : before.overridden env = (before.override env readLimitOverride.name wordOf?
      Settings.withReadLimit >>= fun s => s.override env workersOverride.name wordOf?
        Settings.withWorkers >>= fun s => s.override env heedsOverride.name flagOf?
          Settings.withHeeding >>= pure) := by
    simp only [Settings.overridden, bind_pure]
    rfl
  rw [hsteps]
  -- one variable after the other; behind the last one nothing is reported
  refine override_bind_eq_error_iff hreadLimit _ (fun s => ?_) before
  refine override_bind_eq_error_iff hworkers _ (fun s => ?_) s
  exact override_bind_eq_error_iff hheeds _ hnone s

/-- **The environment overrides settings** as its variables say, each on its own. -/
theorem overriddenBy_overridden (env : Environment) (before : Settings) :
    OverriddenBy env before (before.overridden env) where
  ok_iff _ := overridden_eq_ok_iff
  error_iff _ := overridden_eq_error_iff
  isOk_iff := by
    have hreported : (∃ error, before.overridden env = .error error) ↔
        ∃ v ∈ overridingVariables, Unusable env v := by
      simp only [overridden_eq_error_iff, ← exists_firstWith_iff]
      constructor
      · rintro ⟨_, v, _, hv, -, rfl⟩
        exact ⟨v, hv⟩
      · rintro ⟨v, hv⟩
        obtain ⟨raw, hraw, -⟩ := hv.holds
        exact ⟨_, v, raw, hv, hraw, rfl⟩
    have hnot : (∃ now, before.overridden env = .ok now) ↔
        ¬ ∃ error, before.overridden env = .error error := by
      cases before.overridden env <;> simp
    rw [hnot, hreported]
    push Not
    rfl

end

/-! ## Files -/

/-- **A file under an environment.** The settings that the text of a file states are changed by the
variables that are set and in nothing else; if a variable has a value that cannot be used, the first
such variable is reported with its value. A text that states no settings is reported as such,
whatever the variables are. -/
theorem ofFile_exact {tree : FileTree} {here : Place} {path : RawText} {text : List Char}
    (hread : tree.readText here path = .ok text) (env : Environment) :
    (Settings.ofText? text = none → Settings.ofFile tree here env path = .error .malformed) ∧
      ∀ stated, Settings.ofText? text = some stated →
        OverriddenBy env stated (Settings.ofFile tree here env path) := by
  constructor
  · intro hnone
    simp only [Settings.ofFile, hread, hnone]
  · intro stated hstated
    simp only [Settings.ofFile, hread, hstated]
    exact overriddenBy_overridden env stated

/-- An environment with a number that has a sign and leading zeros, a number with a blank in front
and a word that means nothing. -/
def halfUsable : Environment :=
  [("LANDSCAPE_READ_LIMIT", "+007"), ("LANDSCAPE_THREADS", " 2"),
    ("LANDSCAPE_RESPECT_GITIGNORE", "maybe")]

/-- The second variable is reported: the first can be used, and the third comes later. -/
theorem ofFile_exact_halfUsable :
    bothFiles.readText ["repo"] projectFile = .ok projectText ∧
      Settings.ofText? projectText = some { extraction := { workers := 2 } } ∧
      Settings.ofFile bothFiles ["repo"] halfUsable projectFile
        = .error (.invalid "LANDSCAPE_THREADS" " 2") := by
  have hstated : Settings.ofText? projectText = some { extraction := { workers := 2 } } := by
    rw [Settings.ofText?, read?_projectText]
    exact ofJson?_projectText
  refine ⟨readText_projectFile, hstated, ?_⟩
  have houtcome := (ofFile_exact readText_projectFile halfUsable).2 _ hstated
  have hsigned : wordOf? "+007" = some 7 := by cbv
  have hblank : wordOf? " 2" = none := by cbv
  have hbad : ¬ workersOverride.Usable " 2" := by
    rintro ⟨value, hvalue⟩
    rw [← wordOf?_eq_some_iff, hblank] at hvalue
    cases hvalue
  have hfirst : halfUsable.get? readLimitOverride.name = some "+007" := by cbv
  have hsecond : halfUsable.get? workersOverride.name = some " 2" := by cbv
  rw [houtcome.error_iff]
  refine ⟨workersOverride, " 2",
    ⟨[readLimitOverride], [heedsOverride], rfl, ⟨" 2", hsecond, hbad⟩, ?_⟩, hsecond, rfl⟩
  intro v hv
  rw [List.mem_singleton.mp hv]
  rintro ⟨raw, hraw, hunusable⟩
  obtain rfl : "+007" = raw := Option.some.inj (hfirst.symm.trans hraw)
  exact hunusable ⟨7, wordOf?_eq_some_iff.mp hsigned⟩

end Cartograph
