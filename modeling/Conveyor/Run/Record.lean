/-
Records of runs, and the store that keeps them.

A record is what is known of a run when it is not being executed. A finished run is saved, or its
record is removed if the workflow does not want it kept.
-/
import Conveyor.Run.Basic

set_option autoImplicit false

namespace Conveyor

/-- The record of a run; the state is missing until the run has been executed
(`ExecutionRecord`). -/
structure Record where
  id : String
  workflowId : String
  mode : RunMode
  status : RunStatus := .new
  finished : Bool := false
  startedAt : Time.Instant
  stoppedAt : Option Time.Instant := none
  waitTill : Option Time.Instant := none
  state : Option RunState := none

namespace Record

/-- The record of a run (`ExecutionRecord::from_run`). -/
def ofRun (r : Run) : Record :=
  { id := r.id, workflowId := r.workflowId, mode := r.mode, status := r.status,
    finished := r.finished, startedAt := r.startedAt, stoppedAt := r.stoppedAt,
    waitTill := r.waitTill, state := some r.state }

/-- The run of a record (`ExecutionRecord::into_run`). -/
def toRun (r : Record) : Run :=
  { id := r.id, workflowId := r.workflowId, mode := r.mode, status := r.status,
    finished := r.finished, startedAt := r.startedAt, stoppedAt := r.stoppedAt,
    waitTill := r.waitTill, needsDelete := false, state := r.state.getD {} }

/-- A record as JSON. -/
def encode (r : Record) : Json :=
  .obj ([("id", .str r.id), ("workflowId", .str r.workflowId), ("mode", .str r.mode.name),
      ("status", .str r.status.name), ("finished", .bool r.finished),
      ("startedAt", r.startedAt.encode)] ++
    Json.memberIf "stoppedAt" (r.stoppedAt.map Time.Instant.encode) ++
    Json.memberIf "waitTill" (r.waitTill.map Time.Instant.encode) ++
    Json.memberIf "data" (r.state.map RunState.encode))

/-- A record from JSON. -/
def decode : Json.Decoder Record := fun v => do
  let [id, workflowId, mode, status, finished, startedAt, stoppedAt, waitTill, state] ←
    Json.fields
      ["id", "workflowId", "mode", "status", "finished", "startedAt", "stoppedAt", "waitTill",
        "data"] v | none
  return {
    id := ← id.required Json.Decode.string
    workflowId := ← workflowId.required Json.Decode.string
    mode := ← mode.required (Json.Decode.choice RunMode.names)
    status := ← status.required (Json.Decode.choice RunStatus.names)
    finished := ← finished.required Json.Decode.bool
    startedAt := ← startedAt.required Time.Instant.decode
    stoppedAt := ← stoppedAt.optional Time.Instant.decode
    waitTill := ← waitTill.optional Time.Instant.decode
    state := ← state.optional RunState.decode }

end Record

/-! ## The store -/

/-- Why a store did not do what it was asked for. -/
inductive StoreError where
  | notFound (kind id : String)
  | serialization (message : String)
  | backend (message : String)
  deriving DecidableEq

/-- The text of a store error. -/
def StoreError.message : StoreError → String
  | notFound kind id => kind ++ " not found: " ++ id
  | serialization message => "serialization failed: " ++ message
  | backend message => "storage backend error: " ++ message

/-- Records by the id of their run (`InMemoryExecutionStore`). -/
abbrev RecordStore := Named Record

namespace RecordStore

/-- Saves a record under its id (`save_execution`). -/
def save (s : RecordStore) (r : Record) : RecordStore := s.insert r.id r

/-- Changes the record of an id. -/
def modify (s : RecordStore) (id : String) (f : Record → Record) :
    Except StoreError RecordStore :=
  match s.get? id with
  | some r => .ok (s.insert id (f r))
  | none => .error (.notFound "execution" id)

/-- Marks a record as running (`mark_running`). -/
def markRunning (s : RecordStore) (id : String) : Except StoreError RecordStore :=
  s.modify id fun r => { r with status := .running, waitTill := none }

/-- Sets the status of a record; one that ends the run also tells when, unless that is known
(`set_status`). -/
def setStatus (s : RecordStore) (now : Time.Instant) (id : String) (status : RunStatus) :
    Except StoreError RecordStore :=
  s.modify id fun r =>
    { r with
      status := status
      stoppedAt := if status.isTerminal then some (r.stoppedAt.getD now) else r.stoppedAt }

/-- Removes a record; tells whether it was there (`delete_execution`). -/
def delete (s : RecordStore) (id : String) : Bool × RecordStore := (s.contains id, s.erase id)

/-- Keeps a run that has stopped, or removes its record (`PersistenceHook`). -/
def settle (s : RecordStore) (r : Run) : RecordStore :=
  if r.needsDelete then s.erase r.id else s.save (Record.ofRun r)

end RecordStore

end Conveyor
