/-
How the jobs of a service go on.

A job runs its workflow step by step. A run that ends is kept in the record store, or its record is
removed; a failure is written into the record, which keeps what it held. Then the run leaves the
table, and its result can be collected.
-/
import Conveyor.Service.Basic

set_option autoImplicit false

namespace Conveyor

namespace Service

/-! ## One step -/

/-- Begins the work of a job. -/
def beginWork (s : Service) (token : Nat) : Work → JobStage
  | .engine w r =>
    match s.engine.prepare w r with
    | .ok (x, state) => .running x (s.engine.begin x state (s.isCanceled token))
    | .error e => .returned (.error (.error e.message))
  | .host untilCanceled result =>
    if untilCanceled && !s.isCanceled token then .launched (.host untilCanceled result)
    else .returned result

/-- Keeps a run that has ended, or removes its record
(`PersistenceHook::workflow_execute_after`). -/
def keep (s : Service) (run : Run) : Service :=
  s.tryRecords fun records => .ok (records.settle run)

/-- Goes on with a run. A node that cancels its run cancels the token. -/
def runStep (s : Service) (token : Nat) (x : Execution) : Phase → JobStage × Service
  | .stopped p canceled =>
    let (run, _) := s.engine.finish x p canceled
    (.returned (.ok run), s.keep run)
  | .broken message => (.returned (.error (.crash message)), s)
  | phase =>
    let next := s.engine.step x phase
    (.running x next, if next.isCanceled then s.cancel token else s)

/-- Writes a failure into the record of a run. -/
def recordFailure (s : Service) (id : String) (f : Failure) : Service :=
  s.tryRecords fun records => records.setStatus s.engine.now id f.status

/-- One step of a job, which is what `ActiveExecutions::execute_async` spawns. -/
def jobStep (s : Service) (j : Job) : JobStage × Service :=
  match j.stage with
  | .launched work => (s.beginWork j.token work, s)
  | .running x phase =>
    s.runStep j.token x (if s.isCanceled j.token then phase.cancel else phase)
  | .returned (.ok run) => (.recorded (.ok run), s)
  | .returned (.error f) => (.recorded (.error f), s.recordFailure j.id f)
  | .recorded result => (.ended result, s.leave j.id)
  | .ended result => (.ended result, s)
  | .collected => (.collected, s)

/-- Sets the stage of the job at a position. -/
def setStage (s : Service) (k : Nat) (stage : JobStage) : Service :=
  { s with jobs := s.jobs.modify k fun j => { j with stage := stage } }

/-- One step of the job at a position. -/
def stepJob (s : Service) (k : Nat) : Service :=
  match s.jobs[k]? with
  | some j =>
    let (stage, s) := s.jobStep j
    s.setStage k stage
  | none => s

/-! ## Many steps -/

/-- Some steps of the job at a position. -/
def stepsJob (s : Service) (k : Nat) : Nat → Service
  | 0 => s
  | n + 1 => (s.stepJob k).stepsJob k n

/-- How many steps a job can take at most before it ends or waits. -/
def jobBound (s : Service) : JobStage → Nat
  | .launched _ => s.engine.maxIterations + 5
  | .running _ phase => phase.bound + 4
  | .returned _ | .recorded _ => 2
  | .ended _ | .collected => 0

/-- Lets the job at a position go on until it ends or waits. -/
def runJob (s : Service) (k : Nat) : Service :=
  match s.jobs[k]? with
  | some j => s.stepsJob k (s.jobBound j.stage)
  | none => s

/-- Lets every job go on until it ends or waits. -/
def settle (s : Service) : Service := (List.range s.jobs.length).foldl runJob s

/-! ## Results -/

/-- The position of the job that was launched last for a run. -/
def lastJob? (s : Service) (id : String) : Option Nat :=
  ((List.range s.jobs.length).filter fun k => (s.jobs[k]?).any (·.id == id)).getLast?

/-- Hands out the result of the job that was launched last for a run (`ExecutionHandle::wait`). -/
def collect (s : Service) (id : String) : Option (Except Failure Run) × Service :=
  match s.lastJob? id with
  | none => (none, s)
  | some k =>
    match (s.jobs[k]?).map Job.stage with
    | some (.ended result) => (some result, s.setStage k .collected)
    | _ => (none, s)

end Service

end Conveyor
