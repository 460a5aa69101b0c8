import Cartograph.Proofs.Pipeline
import Cartograph.Workers
import Mathlib

/-!
# All fragments or none

Whatever workers do in whatever order, and whatever the flag shows when they look at it, there are
two outcomes. If nobody found the flag raised, every file is looked into and the fragments are
merged in the order of the files. If somebody did, there is no graph. Main statements: each event
keeps what is known of the work (`Work.Sound.step`), the work never gets stuck and always ends
(`Work.exists_step?`, `Work.left_lt`), and so an analysis is whole or there is none
(`all_fragments_or_none`).
-/

namespace Cartograph

/-- How many events there can be for a file at most from a stage on. -/
def Stage.left : Stage → Nat
  | .waiting => 2
  | .taken | .refused => 1
  | .delivered _ | .noticed | .dropped => 0

namespace Work

/-! ## What can happen -/

/-- How an event changes the work. -/
inductive Step (look : SourceFile → Graph) (work : Work) : Event → Work → Prop
  | take {i : Nat} {file : SourceFile} (h : work.jobs[i]? = some ⟨file, .waiting⟩) :
      Step look work (.check i false) (work.advance i .taken)
  | refuse {i : Nat} {file : SourceFile} (h : work.jobs[i]? = some ⟨file, .waiting⟩) :
      Step look work (.check i true) (work.advance i .refused)
  | deliver {i : Nat} {file : SourceFile} (h : work.jobs[i]? = some ⟨file, .taken⟩) :
      Step look work (.deliver i) (work.advance i (.delivered (look file)))
  | notify {i : Nat} {file : SourceFile} (h : work.jobs[i]? = some ⟨file, .refused⟩) :
      Step look work (.notify i) { work.advance i .noticed with fault := some .cancelled }
  | drop {i : Nat} {file : SourceFile} {stage : Stage} (hfault : work.fault ≠ none)
      (h : work.jobs[i]? = some ⟨file, stage⟩) (hstage : stage = .waiting ∨ stage = .taken) :
      Step look work (.drop i) (work.advance i .dropped)

section

variable {look : SourceFile → Graph} {work next : Work} {event : Event}

/-- These are all the ways in which the work goes on. -/
theorem step_of_step? (h : work.step? look event = some next) : Step look work event next := by
  cases event with
  | check i raised =>
      simp only [step?] at h
      split at h
      · rename_i file hjob
        obtain rfl := Option.some.inj h
        cases raised with
        | false => exact .take hjob
        | true => exact .refuse hjob
      · cases h
  | deliver i =>
      simp only [step?] at h
      split at h
      · rename_i file hjob
        obtain rfl := Option.some.inj h
        exact .deliver hjob
      · cases h
  | notify i =>
      simp only [step?] at h
      split at h
      · rename_i file hjob
        obtain rfl := Option.some.inj h
        exact .notify hjob
      · cases h
  | drop i =>
      simp only [step?] at h
      split at h
      · rename_i fault file hfault hjob
        obtain rfl := Option.some.inj h
        exact .drop (by simp [hfault]) hjob (Or.inl rfl)
      · rename_i fault file hfault hjob
        obtain rfl := Option.some.inj h
        exact .drop (by simp [hfault]) hjob (Or.inr rfl)
      · cases h

/-- What holds of the work and is kept by every event holds after every schedule. -/
theorem run?_induction {P : Work → Prop}
    (hstep : ∀ work event next, Step look work event next → P work → P next)
    {schedule : List Event} (h : work.run? look schedule = some next) (hwork : P work) :
    P next := by
  induction schedule generalizing work with
  | nil =>
      obtain rfl := Option.some.inj h
      exact hwork
  | cons event rest ih =>
      rw [run?, List.foldlM_cons, Option.bind_eq_bind, Option.bind_eq_some_iff] at h
      obtain ⟨middle, hmiddle, hrest⟩ := h
      exact ih hrest (hstep work event middle (step_of_step? hmiddle) hwork)

/-! ## One file brought forward -/

variable {i : Nat} {job old : Job} {stage : Stage}

theorem getElem?_advance_self (h : work.jobs[i]? = some old) :
    (work.advance i stage).jobs[i]? = some { old with stage } := by
  rw [advance, List.getElem?_modify_eq, h]
  rfl

theorem getElem?_advance_of_ne {k : Nat} (h : i ≠ k) :
    (work.advance i stage).jobs[k]? = work.jobs[k]? :=
  List.getElem?_modify_ne _ _ h

/-- The file of a job stays the same. -/
theorem files_advance (h : work.jobs[i]? = some old) :
    (work.advance i stage).jobs.map Job.file = work.jobs.map Job.file := by
  refine List.ext_getElem? fun k => ?_
  rw [List.getElem?_map, List.getElem?_map]
  by_cases hik : i = k
  · subst hik
    rw [getElem?_advance_self h, h]
    rfl
  · rw [getElem?_advance_of_ne hik]

/-- A job is an old one or the one that has been brought forward. -/
theorem mem_jobs_advance (h : work.jobs[i]? = some old)
    (hjob : job ∈ (work.advance i stage).jobs) : job ∈ work.jobs ∨ job = { old with stage } := by
  obtain ⟨k, hk⟩ := List.mem_iff_getElem?.mp hjob
  by_cases hik : i = k
  · subst hik
    rw [getElem?_advance_self h] at hk
    exact Or.inr (Option.some.inj hk).symm
  · rw [getElem?_advance_of_ne hik] at hk
    exact Or.inl (List.mem_iff_getElem?.mpr ⟨k, hk⟩)

/-- The job that has been brought forward is there. -/
theorem advanced_mem_jobs (h : work.jobs[i]? = some old) :
    { old with stage } ∈ (work.advance i stage).jobs :=
  List.mem_iff_getElem?.mpr ⟨i, getElem?_advance_self h⟩

/-- Every job at another stage is still there. -/
theorem mem_jobs_advance_of_ne (h : work.jobs[i]? = some old) (hjob : job ∈ work.jobs)
    (hne : job.stage ≠ old.stage) : job ∈ (work.advance i stage).jobs := by
  obtain ⟨k, hk⟩ := List.mem_iff_getElem?.mp hjob
  have hik : i ≠ k := by
    rintro rfl
    exact hne (congrArg Job.stage (Option.some.inj (hk.symm.trans h)))
  exact List.mem_iff_getElem?.mpr ⟨k, (getElem?_advance_of_ne hik).trans hk⟩

/-! ## What is known of the work -/

/-- What holds of the work on some files at any time. -/
structure Sound (look : SourceFile → Graph) (files : List SourceFile) (work : Work) : Prop where
  files_eq : work.jobs.map Job.file = files
  /-- What was delivered for a file is its fragment. -/
  delivered : ∀ job ∈ work.jobs, ∀ fragment, job.stage = .delivered fragment →
    fragment = look job.file
  /-- No file is left alone before notice was given. -/
  fault_of_left : ∀ job ∈ work.jobs, job.stage = .noticed ∨ job.stage = .dropped →
    work.fault = some .cancelled
  /-- Only a worker that found the flag raised gives notice. -/
  noticed_of_fault : ∀ fault, work.fault = some fault →
    fault = .cancelled ∧ ∃ job ∈ work.jobs, job.stage = .noticed

theorem Sound.start (look : SourceFile → Graph) (files : List SourceFile) :
    Sound look files (start files) := by
  have hwaiting : ∀ job ∈ (Work.start files).jobs, job.stage = .waiting := by
    intro job hjob
    obtain ⟨file, -, rfl⟩ := List.mem_map.mp hjob
    rfl
  refine ⟨?_, fun job hjob fragment h => ?_, fun job hjob h => ?_, fun fault h => ?_⟩
  · rw [Work.start, List.map_map]
    exact List.map_id _
  · rw [hwaiting job hjob] at h
    cases h
  · rw [hwaiting job hjob] at h
    rcases h with h | h <;> cases h
  · cases h

/-- A file that is brought forward, while nobody gives notice, keeps the work sound as long as its
new stage is sound. -/
theorem Sound.advance {files : List SourceFile} (h : Sound look files work)
    (hold : work.jobs[i]? = some old) (hne : old.stage ≠ .noticed)
    (hdelivered : ∀ fragment, stage = .delivered fragment → fragment = look old.file)
    (hleft : stage = .noticed ∨ stage = .dropped → work.fault = some .cancelled) :
    Sound look files (work.advance i stage) where
  files_eq := (files_advance hold).trans h.files_eq
  delivered job hjob fragment hstage := by
    rcases mem_jobs_advance hold hjob with hmem | rfl
    · exact h.delivered job hmem fragment hstage
    · exact hdelivered fragment hstage
  fault_of_left job hjob hstage := by
    rcases mem_jobs_advance hold hjob with hmem | rfl
    · exact h.fault_of_left job hmem hstage
    · exact hleft hstage
  noticed_of_fault fault hfault := by
    obtain ⟨hcancelled, job, hjob, hstage⟩ := h.noticed_of_fault fault hfault
    refine ⟨hcancelled, job, mem_jobs_advance_of_ne hold hjob ?_, hstage⟩
    rw [hstage]
    exact hne.symm

/-- **Every event keeps the work sound.** -/
theorem Sound.step {files : List SourceFile} (hstep : Step look work event next)
    (h : Sound look files work) : Sound look files next := by
  cases hstep with
  | take hjob => exact h.advance hjob (by simp) (by simp) (by simp)
  | refuse hjob => exact h.advance hjob (by simp) (by simp) (by simp)
  | deliver hjob =>
      exact h.advance hjob (by simp) (fun fragment heq => (Stage.delivered.inj heq).symm) (by simp)
  | @notify i file hjob =>
      refine ⟨(files_advance hjob).trans h.files_eq, ?_, fun _ _ _ => rfl, ?_⟩
      · intro job hmem fragment hstage
        rcases mem_jobs_advance hjob hmem with hmem | rfl
        · exact h.delivered job hmem fragment hstage
        · cases hstage
      · intro fault hfault
        exact ⟨(Option.some.inj hfault).symm, _, advanced_mem_jobs hjob, rfl⟩
  | drop hfault hjob hstage =>
      obtain ⟨fault, hsome⟩ := Option.ne_none_iff_exists'.mp hfault
      have hcancelled : work.fault = some .cancelled := by
        rw [hsome, (h.noticed_of_fault fault hsome).1]
      refine h.advance hjob ?_ (by simp) fun _ => hcancelled
      rcases hstage with rfl | rfl <;> simp

/-- The work is sound after every schedule. -/
theorem Sound.run {files : List SourceFile} {schedule : List Event}
    (h : (Work.start files).run? look schedule = some work) : Sound look files work :=
  run?_induction (fun _ _ _ hstep hsound => hsound.step hstep) h (.start look files)

/-! ## Checks that found the flag raised -/

/-- Some check found the flag raised. -/
def Stopped (work : Work) : Prop :=
  ∃ job ∈ work.jobs, job.stage.check = .stopped

/-- Whether a check found the flag raised does not change with a file that is brought forward unless
its check does. -/
theorem stopped_advance (h : work.jobs[i]? = some old) (hold : old.stage.check = .stopped ↔
    stage.check = .stopped) : (work.advance i stage).Stopped ↔ work.Stopped := by
  constructor
  · rintro ⟨job, hjob, hstopped⟩
    rcases mem_jobs_advance h hjob with hmem | rfl
    · exact ⟨job, hmem, hstopped⟩
    · exact ⟨old, List.mem_of_getElem? h, hold.mpr hstopped⟩
  · rintro ⟨job, hjob, hstopped⟩
    by_cases hsame : job.stage = old.stage
    · exact ⟨_, advanced_mem_jobs h, hold.mp (hsame ▸ hstopped)⟩
    · exact ⟨job, mem_jobs_advance_of_ne h hjob hsame, hstopped⟩

/-- **One more event**: a check is known to have found the flag raised if one had done so before or
the event is one. -/
theorem stopped_step (hstep : Step look work event next) :
    next.Stopped ↔ work.Stopped ∨ ∃ i, event = .check i true := by
  cases hstep with
  | @take i file hjob =>
      have hsame : (work.advance i .taken).Stopped ↔ work.Stopped :=
        stopped_advance hjob (by simp [Stage.check])
      simp [hsame]
  | @refuse i file hjob =>
      exact iff_of_true ⟨_, advanced_mem_jobs hjob, rfl⟩ (Or.inr ⟨i, rfl⟩)
  | @deliver i file hjob =>
      have hsame : (work.advance i (.delivered (look file))).Stopped ↔ work.Stopped :=
        stopped_advance hjob (by simp [Stage.check])
      simp [hsame]
  | @notify i file hjob =>
      have hsame : (work.advance i .noticed).Stopped ↔ work.Stopped :=
        stopped_advance hjob (by simp [Stage.check])
      exact Iff.trans hsame (by simp)
  | @drop i file stage _ hjob hstage =>
      have hsame : (work.advance i .dropped).Stopped ↔ work.Stopped := by
        refine stopped_advance hjob ?_
        rcases hstage with rfl | rfl <;> simp [Stage.check]
      simp [hsame]

/-- **A check found the flag raised** after a schedule if one had done so before or the schedule has
one. -/
theorem stopped_run? {schedule : List Event} (h : work.run? look schedule = some next) :
    next.Stopped ↔ work.Stopped ∨ ∃ i, Event.check i true ∈ schedule := by
  induction schedule generalizing work with
  | nil =>
      obtain rfl := Option.some.inj h
      simp
  | cons event rest ih =>
      rw [run?, List.foldlM_cons, Option.bind_eq_bind, Option.bind_eq_some_iff] at h
      obtain ⟨middle, hmiddle, hrest⟩ := h
      rw [ih hrest, stopped_step (step_of_step? hmiddle), or_assoc, ← exists_or]
      simp only [List.mem_cons, eq_comm]

/-- At the start no check has been made. -/
theorem not_stopped_start (files : List SourceFile) : ¬ (start files).Stopped := by
  rintro ⟨job, hjob, hstopped⟩
  obtain ⟨file, -, rfl⟩ := List.mem_map.mp hjob
  cases hstopped

/-! ## Getting to the end -/

/-- How many events there can be at most from now on. -/
def left (work : Work) : Nat :=
  (work.jobs.map fun job => job.stage.left).sum

/-- Bringing a file forward takes from what is left what the file has less to come. -/
theorem left_advance (h : work.jobs[i]? = some old) :
    (work.advance i stage).left + old.stage.left = work.left + stage.left := by
  obtain ⟨hi, rfl⟩ := List.getElem?_eq_some_iff.mp h
  rw [left, left, advance, List.modify_eq_take_cons_drop hi]
  conv_rhs => rw [← List.take_append_drop i work.jobs, ← List.cons_getElem_drop_succ (h := hi)]
  simp only [List.map_append, List.map_cons, List.sum_append, List.sum_cons]
  omega

theorem left_advance_lt (h : work.jobs[i]? = some old) (hlt : stage.left < old.stage.left) :
    (work.advance i stage).left < work.left := by
  have hsum : (work.advance i stage).left + old.stage.left = work.left + stage.left :=
    left_advance h
  omega

/-- **The work ends**: every event leaves less to come. -/
theorem left_lt (hstep : Step look work event next) : next.left < work.left := by
  cases hstep with
  | take hjob => exact left_advance_lt hjob Nat.one_lt_two
  | refuse hjob => exact left_advance_lt hjob Nat.one_lt_two
  | deliver hjob => exact left_advance_lt hjob Nat.zero_lt_one
  | @notify i file hjob =>
      have hlt : (work.advance i .noticed).left < work.left :=
        left_advance_lt hjob Nat.zero_lt_one
      exact hlt
  | drop _ hjob hstage =>
      refine left_advance_lt hjob ?_
      rcases hstage with rfl | rfl
      · exact Nat.zero_lt_two
      · exact Nat.zero_lt_one

/-- A schedule is no longer than what there was to do. -/
theorem length_add_left_le {schedule : List Event} (h : work.run? look schedule = some next) :
    schedule.length + next.left ≤ work.left := by
  induction schedule generalizing work with
  | nil =>
      obtain rfl := Option.some.inj h
      simp
  | cons event rest ih =>
      rw [run?, List.foldlM_cons, Option.bind_eq_bind, Option.bind_eq_some_iff] at h
      obtain ⟨middle, hmiddle, hrest⟩ := h
      have hlt := left_lt (step_of_step? hmiddle)
      have hle := ih hrest
      rw [List.length_cons]
      omega

theorem left_start (files : List SourceFile) : (start files).left = 2 * files.length := by
  simp [left, start, Function.comp_def, Stage.left, mul_comm]

/-- **The work never gets stuck.** Unless it has ended, some event can happen next, whatever the
flag shows. -/
theorem exists_step? (look : SourceFile → Graph) (h : work.finished = false) (raised : Bool) :
    ∃ event, (work.step? look event).isSome = true ∧ ∀ i found, event = .check i found →
      found = raised := by
  rw [finished, List.all_eq_false] at h
  obtain ⟨⟨file, stage⟩, hjob, hstage⟩ := h
  obtain ⟨i, hi⟩ := List.mem_iff_getElem?.mp hjob
  cases stage with
  | waiting => exact ⟨.check i raised, by simp [step?, hi], by simp⟩
  | taken => exact ⟨.deliver i, by simp [step?, hi], by simp⟩
  | refused => exact ⟨.notify i, by simp [step?, hi], by simp⟩
  | delivered fragment => exact absurd rfl hstage
  | noticed => exact absurd rfl hstage
  | dropped => exact absurd rfl hstage

/-! ## What comes of the work -/

section

variable {files : List SourceFile}

/-- Once all work has ended without notice, every file has been delivered. -/
theorem Sound.eq_delivered (h : Sound look files work) (hfinished : work.finished = true)
    (hfault : work.fault = none) {job : Job} (hjob : job ∈ work.jobs) :
    job.stage = .delivered (look job.file) := by
  have hfinal : job.stage.isFinal = true := List.all_eq_true.mp hfinished job hjob
  have hnone : ¬ (job.stage = .noticed ∨ job.stage = .dropped) := by
    intro hleft
    rw [h.fault_of_left job hjob hleft] at hfault
    cases hfault
  cases hstage : job.stage with
  | delivered fragment => rw [h.delivered job hjob fragment hstage]
  | noticed => exact absurd (Or.inl hstage) hnone
  | dropped => exact absurd (Or.inr hstage) hnone
  | waiting | taken | refused =>
      rw [hstage] at hfinal
      cases hfinal

/-- Once all work has ended, notice has been given exactly if a check found the flag raised. -/
theorem Sound.fault_iff (h : Sound look files work) (hfinished : work.finished = true) :
    work.fault = some .cancelled ↔ work.Stopped := by
  constructor
  · intro hfault
    obtain ⟨-, job, hjob, hstage⟩ := h.noticed_of_fault _ hfault
    exact ⟨job, hjob, by rw [hstage]; rfl⟩
  · rintro ⟨job, hjob, hstopped⟩
    have hfinal : job.stage.isFinal = true := List.all_eq_true.mp hfinished job hjob
    cases hstage : job.stage with
    | noticed => exact h.fault_of_left job hjob (Or.inl hstage)
    | waiting | taken | refused | delivered _ | dropped => simp_all [Stage.isFinal, Stage.check]

theorem Sound.fault_eq (h : Sound look files work) :
    work.fault = none ∨ work.fault = some .cancelled := by
  cases hfault : work.fault with
  | none => exact Or.inl rfl
  | some fault => exact Or.inr (congrArg some (h.noticed_of_fault fault hfault).1)

/-- **Without notice** the fragments of all files are merged, in the order of the files. -/
theorem Sound.result_of_fault_eq_none (h : Sound look files work)
    (hfinished : work.finished = true) (hfault : work.fault = none) :
    work.result = .ok (Graph.mergeAll (files.map look)) := by
  have hfragments : work.jobs.filterMap (fun job => job.stage.fragment?) = files.map look := by
    rw [← h.files_eq, List.map_map, ← List.filterMap_eq_map]
    refine List.filterMap_congr fun job hjob => ?_
    rw [h.eq_delivered hfinished hfault hjob]
    rfl
  rw [result, hfault, hfragments]

theorem result_of_fault_eq_some (h : work.fault = some .cancelled) :
    work.result = .error .cancelled := by
  rw [result, h]

end

end

end Work

/-! ## Whole analyses -/

/-- What comes of the work on some files after a schedule by which all of it has ended. -/
structure Work.AllOrNothing (host : Host) (tree : FileTree) (settings : ExtractionSettings)
    (files : List SourceFile) (schedule : List Event) (work : Work) : Prop where
  /-- There is no graph if a check found the flag raised. -/
  cancelled : (∃ i, Event.check i true ∈ schedule) → work.result = .error .cancelled
  /-- Otherwise there is the graph of all files. -/
  complete : (∀ i, Event.check i true ∉ schedule) → work.result
    = .ok (Graph.mergeAll (files.map fun file => file.contribution tree settings))
  /-- No graph lacks the fragment of a file or has them in another order. -/
  whole : ∀ g, work.result = .ok g →
    g = Graph.mergeAll (files.map fun file => file.contribution tree settings)
  /-- This is the graph that is built from what the checks found. -/
  buildGraph_eq : buildGraph host tree settings files work.checks = work.result
  /-- Without files there is nothing to stop. -/
  of_nil : files = [] → work.result = .ok Graph.empty

section

variable {host : Host} {tree : FileTree} {settings : ExtractionSettings}
  {files : List SourceFile} {schedule : List Event} {start work : Work}

/-- Work begins as soon as there are workers, with nothing done yet. -/
theorem Work.begin_eq_ok_iff : Work.begin host settings.workers files = .ok start ↔
    host.pool settings.workers = .ok () ∧ start = Work.start files := by
  cases hpool : host.pool settings.workers <;> simp [Work.begin, hpool, eq_comm]

/-- What the checks found tells the graph. -/
theorem Work.Sound.buildGraph_eq
    (h : Sound (fun file => file.contribution tree settings) files work)
    (hfinished : work.finished = true) (hpool : host.pool settings.workers = .ok ()) :
    buildGraph host tree settings files work.checks = work.result := by
  rcases h.fault_eq with hfault | hfault
  · have hchecks : work.checks = undisturbed files := by
      rw [checks, undisturbed, ← h.files_eq, List.map_map]
      refine List.map_congr_left fun job hjob => ?_
      rw [h.eq_delivered hfinished hfault hjob]
      rfl
    rw [hchecks, buildGraph_undisturbed hpool, h.result_of_fault_eq_none hfinished hfault, combined]
  · have hstopped : work.checks.contains .stopped = true := by
      obtain ⟨job, hjob, hcheck⟩ := (h.fault_iff hfinished).mp hfault
      rw [List.contains_iff_mem, checks, ← hcheck]
      exact List.mem_map_of_mem hjob
    rw [buildGraph_of_stopped hpool hstopped, result_of_fault_eq_some hfault]

/-- **All fragments or none.** Once there are workers, by whatever schedule they look into files,
whatever the flag shows at their checks: the schedule comes to an end, as some event can happen
until all work has ended and there are two events for a file at most; and in the end there is the
graph of all files in their order if no check found the flag raised, and otherwise no graph. -/
theorem all_fragments_or_none (hstart : Work.begin host settings.workers files = .ok start)
    (h : start.run? (fun file => file.contribution tree settings) schedule = some work) :
    (work.finished = true → work.AllOrNothing host tree settings files schedule) ∧
      (work.finished = false → ∀ raised, ∃ event,
        (work.step? (fun file => file.contribution tree settings) event).isSome = true ∧
          ∀ i found, event = .check i found → found = raised) ∧
      schedule.length ≤ 2 * files.length := by
  obtain ⟨hpool, rfl⟩ := Work.begin_eq_ok_iff.mp hstart
  have hsound := Work.Sound.run h
  have hstopped : work.Stopped ↔ ∃ i, Event.check i true ∈ schedule := by
    rw [Work.stopped_run? h, or_iff_right (Work.not_stopped_start files)]
  refine ⟨fun hfinished => ?_, fun hfinished => Work.exists_step? _ hfinished, ?_⟩
  · have hfault := hsound.fault_iff hfinished
    have hnone : work.fault = none ↔ ¬ work.Stopped := by
      rw [← hfault]
      rcases hsound.fault_eq with heq | heq <;> simp [heq]
    have hcomplete : (∀ i, Event.check i true ∉ schedule) → work.result
        = .ok (Graph.mergeAll (files.map fun file => file.contribution tree settings)) := by
      intro hall
      refine hsound.result_of_fault_eq_none hfinished (hnone.mpr ?_)
      rw [hstopped]
      exact not_exists.mpr hall
    have hcancelled : (∃ i, Event.check i true ∈ schedule) → work.result = .error .cancelled :=
      fun hsome => Work.result_of_fault_eq_some (hfault.mpr (hstopped.mpr hsome))
    refine ⟨hcancelled, hcomplete, fun g hg => ?_, hsound.buildGraph_eq hfinished hpool, ?_⟩
    · by_cases hsome : ∃ i, Event.check i true ∈ schedule
      · rw [hcancelled hsome] at hg
        cases hg
      · rw [hcomplete (not_exists.mp hsome)] at hg
        exact (Except.ok.inj hg).symm
    · rintro rfl
      have hlength := Work.length_add_left_le h
      rw [Work.left_start, List.length_nil, Nat.mul_zero, Nat.le_zero, Nat.add_eq_zero_iff,
        List.length_eq_zero_iff] at hlength
      rw [hcomplete (by simp [hlength.1])]
      rfl
  · have hlength := Work.length_add_left_le h
    rw [Work.left_start] at hlength
    omega

end

/-- Three files, one of which imports another. -/
def threeFiles : FileTree :=
  .directory [("repo", .directory
    [("a.py", .file (Text.Utf8.encode "import b\n")), ("b.py", .file []), ("c.js", .file [])])]

/-- The second file is taken while the flag is still lowered. Then a worker finds it raised before
the first file and says so; the second file is delivered in vain and the third one left alone. -/
theorem all_fragments_or_none_stoppedMidway :
    ∃ start work, Work.begin {} 2 [SourceFile.at ["repo"] ["a.py"],
          SourceFile.at ["repo"] ["b.py"], SourceFile.at ["repo"] ["c.js"]] = .ok start ∧
      start.run? (fun file => file.contribution threeFiles { workers := 2 })
        [.check 1 false, .check 0 true, .deliver 1, .notify 0, .drop 2] = some work ∧
      work.finished = true ∧
      work.AllOrNothing {} threeFiles { workers := 2 } [SourceFile.at ["repo"] ["a.py"],
          SourceFile.at ["repo"] ["b.py"], SourceFile.at ["repo"] ["c.js"]]
        [.check 1 false, .check 0 true, .deliver 1, .notify 0, .drop 2] ∧
      work.result = .error .cancelled := by
  refine ⟨_, _, rfl, rfl, rfl, ?_, rfl⟩
  exact (all_fragments_or_none rfl rfl).1 rfl

end Cartograph
