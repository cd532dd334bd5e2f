/-
A service that runs workflows in the background.

The service keeps a record of every run, a table of the runs that are active, and the jobs that it
has launched. Every entry of the table has a token, by which its jobs are canceled; a run that is
registered again under its id gets a new token. The record store may be out of order for a time.
-/
import Conveyor.Engine.Run
import Conveyor.Service.Error
import Conveyor.Workflow.Store

set_option autoImplicit false

namespace Conveyor

/-- An active run: what it was started for and when, and its token (`ExecutingWorkflowData`). -/
structure ActiveRun where
  id : String
  workflowId : String
  mode : RunMode
  startedAt : Time.Instant
  token : Nat
  deriving DecidableEq

/-- What a job does. -/
inductive Work where
  /-- It asks the engine for a run of a workflow. -/
  | engine (workflow : Workflow) (request : Request)
  /-- It is work of the host with a known result, which may be kept back until the job is
  canceled. -/
  | host (untilCanceled : Bool) (result : Except Failure Run)

/-- Where a job stands. -/
inductive JobStage where
  | launched (work : Work)
  | running (x : Execution) (phase : Phase)
  /-- The work has a result. -/
  | returned (result : Except Failure Run)
  /-- The record knows of the result. -/
  | recorded (result : Except Failure Run)
  /-- The run has left the table. -/
  | ended (result : Except Failure Run)
  /-- The result was handed out. -/
  | collected

/-- Work that was launched for a run. -/
structure Job where
  id : String
  token : Nat
  stage : JobStage

/-- A service (`WorkflowRunner` with its `ActiveExecutions`). -/
structure Service where
  engine : Engine
  /-- The id of the `n`th record that is created. -/
  recordId : Nat → String
  workflows : WorkflowStore := []
  records : RecordStore := []
  /-- What every call of the record store fails with, as long as it is out of order. -/
  outage : Option StoreError := none
  /-- How many records were created. -/
  created : Nat := 0
  active : Named ActiveRun := []
  /-- How many tokens were given out. -/
  tokens : Nat := 0
  /-- The tokens that are canceled. -/
  canceled : List Nat := []
  /-- The jobs in the order of their launch. -/
  jobs : List Job := []

namespace Service

/-! ## Records -/

/-- Changes the records, unless the store is out of order. -/
def withRecords (s : Service) (f : RecordStore → Except StoreError RecordStore) :
    Except StoreError Service :=
  match s.outage with
  | some e => .error e
  | none => (f s.records).map fun records => { s with records := records }

/-- Changes the records if that can be done. -/
def tryRecords (s : Service) (f : RecordStore → Except StoreError RecordStore) : Service :=
  match s.withRecords f with
  | .ok s => s
  | .error _ => s

/-- The record of an id. -/
def record? (s : Service) (id : String) : Except StoreError (Option Record) :=
  match s.outage with
  | some e => .error e
  | none => .ok (s.records.get? id)

/-- Creates the record of a run that is about to be started. -/
def createRecord (s : Service) (workflowId : String) (mode : RunMode) :
    Except StoreError (String × Service) := do
  let id := s.recordId (s.created + 1)
  let record : Record :=
    { id := id, workflowId := workflowId, mode := mode, status := .running,
      startedAt := s.engine.now }
  let s ← s.withRecords fun records => .ok (records.save record)
  return (id, { s with created := s.created + 1 })

/-- Marks the record of a run as running again. -/
def reopenRecord (s : Service) (id : String) : Except StoreError Service :=
  s.withRecords fun records => records.markRunning id

/-! ## The table -/

/-- Puts a run into the table, with a new token. -/
def enter (s : Service) (id workflowId : String) (mode : RunMode) : Service :=
  { s with
    active := s.active.insert id ⟨id, workflowId, mode, s.engine.now, s.tokens⟩
    tokens := s.tokens + 1 }

/-- Removes a run from the table. -/
def leave (s : Service) (id : String) : Service := { s with active := s.active.erase id }

/-- Whether a run is in the table (`ActiveExecutions::is_active`). -/
def isActive (s : Service) (id : String) : Bool := s.active.contains id

/-- Whether a token is canceled. -/
def isCanceled (s : Service) (token : Nat) : Bool := s.canceled.contains token

/-- Cancels a token. -/
def cancel (s : Service) (token : Nat) : Service := { s with canceled := token :: s.canceled }

/-- Cancels an active run and removes it from the table (`ActiveExecutions::stop_execution`). -/
def stop (s : Service) (id : String) : Option ActiveRun × Service :=
  match s.active.get? id with
  | some entry => (some entry, (s.leave id).cancel entry.token)
  | none => (none, s)

/-- Registers a run, whose record is created unless it is there already
(`ActiveExecutions::add_execution`). -/
def register (s : Service) (workflowId : String) (mode : RunMode) (existing : Option String) :
    Except StoreError (String × Service) := do
  let (id, s) ← match existing with
    | none => s.createRecord workflowId mode
    | some id => (s.reopenRecord id).map (id, ·)
  return (id, s.enter id workflowId mode)

/-- Launches work for a run in the table (`ActiveExecutions::execute_async`). -/
def launch (s : Service) (id : String) (work : Work) : Except ServiceError Service :=
  match s.active.get? id with
  | some entry => .ok { s with jobs := s.jobs ++ [⟨id, entry.token, .launched work⟩] }
  | none => .error (.notRegistered id)

end Service

end Conveyor
