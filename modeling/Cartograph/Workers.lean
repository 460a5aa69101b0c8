import Cartograph.Analysis

/-!
# Workers

Files are looked into by workers, any number of them and in no particular order. Before a file a
worker looks at the flag that stops the analysis, which may show anything at any time. Who finds it
raised gives notice of it. From then on workers may leave the other files alone and throw away what
they hold, but a worker that has not heard of it goes on. What was delivered lies in the order of
the files, whoever was first, and is merged once all work has ended. Nothing begins before there are
workers.

A schedule is the list of what happened, one event after the other. An event that cannot happen has
no outcome.
-/

namespace Cartograph

/-! ## Work -/

/-- How far the work on a file has come. -/
inductive Stage where
  | waiting
  /-- A worker has found the flag lowered and looks into the file. -/
  | taken
  | delivered (fragment : Graph)
  /-- A worker has found the flag raised. -/
  | refused
  /-- A worker has found the flag raised and has given notice. -/
  | noticed
  /-- Left alone after another worker had given notice. -/
  | dropped
  deriving Inhabited

/-- The work on one file. -/
structure Job where
  file : SourceFile
  stage : Stage := .waiting
  deriving Inhabited

/-- The work on all files, in their order. -/
structure Work where
  jobs : List Job
  /-- Why there will be no graph, once a worker has given notice. -/
  fault : Option AnalysisError := none
  deriving Inhabited

/-- The work before anything has happened. -/
def Work.start (files : List SourceFile) : Work :=
  { jobs := files.map fun file => { file } }

/-- The work once there are workers. -/
def Work.begin (host : Host) (workers : UInt64) (files : List SourceFile) :
    Except AnalysisError Work := do
  host.pool workers
  return start files

/-! ## Events -/

/-- What happens to the work on the file at a position. -/
inductive Event where
  /-- A worker looks at the flag. -/
  | check (i : Nat) (raised : Bool)
  /-- A worker is done with the file. -/
  | deliver (i : Nat)
  /-- A worker that has found the flag raised says so. -/
  | notify (i : Nat)
  /-- A worker that has been told to stop leaves the file alone. -/
  | drop (i : Nat)
  deriving DecidableEq, Inhabited, Repr

/-- The work with the file at a position brought to another stage. -/
def Work.advance (work : Work) (i : Nat) (stage : Stage) : Work :=
  { work with jobs := work.jobs.modify i fun job => { job with stage } }

/-- The work after an event, where `look` says what a file contributes. -/
def Work.step? (look : SourceFile → Graph) (work : Work) : Event → Option Work
  | .check i raised =>
    match work.jobs[i]? with
    | some ⟨_, .waiting⟩ => some (work.advance i (if raised then .refused else .taken))
    | _ => none
  | .deliver i =>
    match work.jobs[i]? with
    | some ⟨file, .taken⟩ => some (work.advance i (.delivered (look file)))
    | _ => none
  | .notify i =>
    match work.jobs[i]? with
    | some ⟨_, .refused⟩ => some { work.advance i .noticed with fault := some .cancelled }
    | _ => none
  | .drop i =>
    match work.fault, work.jobs[i]? with
    | some _, some ⟨_, .waiting⟩ => some (work.advance i .dropped)
    | some _, some ⟨_, .taken⟩ => some (work.advance i .dropped)
    | _, _ => none

/-- The work after a schedule. -/
def Work.run? (look : SourceFile → Graph) (work : Work) (schedule : List Event) : Option Work :=
  schedule.foldlM (Work.step? look) work

/-! ## The end -/

/-- Nothing is left to do about a file. -/
def Stage.isFinal : Stage → Bool
  | .delivered _ | .noticed | .dropped => true
  | .waiting | .taken | .refused => false

/-- What a worker has delivered. -/
def Stage.fragment? : Stage → Option Graph
  | .delivered fragment => some fragment
  | _ => none

/-- What the check before a file found. -/
def Stage.check : Stage → Check
  | .taken | .delivered _ => .passed
  | .refused | .noticed => .stopped
  | .waiting | .dropped => .skipped

/-- All work has ended. -/
def Work.finished (work : Work) : Bool :=
  work.jobs.all fun job => job.stage.isFinal

/-- What the checks before the files found. -/
def Work.checks (work : Work) : List Check :=
  work.jobs.map fun job => job.stage.check

/-- What comes of the work. -/
def Work.result (work : Work) : Except AnalysisError Graph :=
  match work.fault with
  | some fault => .error fault
  | none => .ok (Graph.mergeAll (work.jobs.filterMap fun job => job.stage.fragment?))

end Cartograph
