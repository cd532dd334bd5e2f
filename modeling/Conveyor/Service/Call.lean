/-
Operations that start runs.

An operation goes through its stages one by one, and other operations, jobs and stops may come
between any two of them: a new run creates a record, enters the table and is launched; a run that is
resumed has its record read, its workflow loaded and its record marked as running before it enters
the table and is launched.
-/
import Conveyor.Service.Basic

set_option autoImplicit false

namespace Conveyor

/-- An operation under way, named for what it does next. -/
inductive Call where
  /-- It loads a stored workflow that is to be started. -/
  | find (workflowId : String) (mode : RunMode) (items : Option Items)
  /-- It creates the record of a run. -/
  | create (w : Workflow) (mode : RunMode) (request : String → Request)
  /-- It reads the record of a run that is to be resumed. -/
  | read (id : String)
  /-- It loads the workflow of that run. -/
  | load (id : String) (record : Record)
  /-- It marks the record as running. -/
  | reopen (id : String) (record : Record) (w : Workflow)
  /-- It puts the run into the table. -/
  | enter (id : String) (mode : RunMode) (w : Workflow) (request : Request)
  /-- It launches the run. -/
  | launch (id : String) (w : Workflow) (request : Request)
  /-- It has a result: the id of the run. -/
  | finished (result : Except ServiceError String)

namespace Call

/-! ## Beginning -/

/-- Starts a workflow, at a node or at every trigger (`WorkflowRunner::run`). -/
def start (w : Workflow) (mode : RunMode) (startNode : Option String) (items : Option Items) :
    Call :=
  .create w mode fun id => .start id mode startNode items

/-- Starts a workflow at a node with what an earlier run left there
(`WorkflowRunner::run_from_node`). -/
def rerun (w : Workflow) (mode : RunMode) (startNode : String) (prior : RunData) : Call :=
  .create w mode fun id => .rerun id mode startNode prior

/-- Resumes a run that waits (`WorkflowRunner::resume`). -/
def resume (id : String) : Call := .read id

/-! ## Going on -/

/-- Ends with an error. -/
def fail (e : ServiceError) : Call := .finished (.error e)

/-- One step of an operation. -/
def step (s : Service) : Call → Call × Service
  | find workflowId mode items =>
    match s.workflows.get? workflowId with
    | some w => (start w mode none items, s)
    | none => (fail (.workflowNotFound workflowId), s)
  | create w mode request =>
    match s.createRecord w.id mode with
    | .ok (id, s) => (enter id mode w (request id), s)
    | .error e => (fail (.register e), s)
  | read id =>
    match s.record? id with
    | .error e => (fail (.store e), s)
    | .ok none => (fail (.recordNotFound id), s)
    | .ok (some record) =>
      if record.status = .waiting then (load id record, s)
      else (fail (.notWaiting id record.status), s)
  | load id record =>
    match s.workflows.get? record.workflowId with
    | some w => (reopen id record w, s)
    | none => (fail (.workflowNotFound record.workflowId), s)
  | reopen id record w =>
    match s.reopenRecord id with
    | .ok s => (enter id record.mode w (.resume record.toRun), s)
    | .error e => (fail (.reopen e), s)
  | enter id mode w request => (launch id w request, s.enter id w.id mode)
  | launch id w request =>
    match s.launch id (.engine w request) with
    | .ok s => (finished (.ok id), s)
    | .error e => (fail e, s)
  | finished result => (finished result, s)

/-- How many steps an operation takes at most before it has a result. -/
def bound : Call → Nat
  | read _ => 5
  | load .. | find .. => 4
  | reopen .. | create .. => 3
  | enter .. => 2
  | launch .. => 1
  | finished _ => 0

/-- The result of an operation that has one. -/
def result? : Call → Option (Except ServiceError String)
  | finished result => some result
  | find .. | create .. | read _ | load .. | reopen .. | enter .. | launch .. => none

/-- Every step of an operation brings it closer to its result. -/
theorem bound_step_lt (s : Service) (c : Call) (h : c.result? = none) :
    (c.step s).1.bound < c.bound := by
  cases c <;> simp only [step] <;> repeat' split
  all_goals simp_all [bound, fail, start, result?]

end Call

namespace Service

/-- Carries an operation out, with nothing else in between. -/
def perform (s : Service) (c : Call) : Except ServiceError String × Service :=
  match _h : c.result? with
  | some result => (result, s)
  | none => (c.step s).2.perform (c.step s).1
termination_by c.bound
decreasing_by exact Call.bound_step_lt s c ‹_›

end Service

end Conveyor
