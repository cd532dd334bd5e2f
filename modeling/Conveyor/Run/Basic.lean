/-
Runs of workflows: why they were started, how they stand, and what they did.
-/
import Conveyor.Run.State
import Conveyor.Workflow.Basic

set_option autoImplicit false

namespace Conveyor

/-- Why a run was started (`ExecutionMode`). -/
inductive RunMode where
  | manual
  | trigger
  | webhook
  | retry
  | internal
  deriving DecidableEq

/-- How a run stands. -/
inductive RunStatus where
  | new
  | running
  | success
  | failed
  | crashed
  | canceled
  | waiting
  deriving DecidableEq

/-- A run. -/
structure Run where
  id : String
  workflowId : String
  mode : RunMode
  status : RunStatus
  finished : Bool
  startedAt : Time.Instant
  stoppedAt : Option Time.Instant := none
  waitTill : Option Time.Instant := none
  /-- Whether the record of the run is to be removed. -/
  needsDelete : Bool := false
  state : RunState := {}

namespace RunMode

/-- The name of a mode. -/
def name : RunMode → String
  | manual => "manual"
  | trigger => "trigger"
  | webhook => "webhook"
  | retry => "retry"
  | internal => "internal"

/-- The modes by name. -/
def names : Named RunMode :=
  [("manual", manual), ("trigger", trigger), ("webhook", webhook), ("retry", retry),
    ("internal", internal)]

end RunMode

namespace RunStatus

/-- The name of a status. -/
def name : RunStatus → String
  | new => "new"
  | running => "running"
  | success => "success"
  | failed => "failed"
  | crashed => "crashed"
  | canceled => "canceled"
  | waiting => "waiting"

/-- The statuses by name. -/
def names : Named RunStatus :=
  [("new", new), ("running", running), ("success", success), ("failed", failed),
    ("crashed", crashed), ("canceled", canceled), ("waiting", waiting)]

/-- The name of a status as messages write it. -/
def capitalized : RunStatus → String
  | new => "New"
  | running => "Running"
  | success => "Success"
  | failed => "Failed"
  | crashed => "Crashed"
  | canceled => "Canceled"
  | waiting => "Waiting"

/-- Whether a run with this status has ended for good (`RunStatus::is_terminal`). -/
def isTerminal : RunStatus → Bool
  | success | failed | crashed | canceled => true
  | new | running | waiting => false

/-- The status of a run that stopped: a pause outweighs an error, that outweighs cancellation, and
that outweighs a crash (`determine_status`). -/
def ofOutcome (failed crashed canceled waiting : Bool) : RunStatus :=
  if waiting then .waiting
  else if failed then .failed
  else if canceled then .canceled
  else if crashed then .crashed
  else .success

/-- Whether the settings ask to remove the record of a run with this status (`needs_delete`). -/
def needsDelete (s : RunStatus) (settings : Settings) : Bool :=
  match s with
  | success => settings.onSuccess = .none
  | failed | crashed => settings.onFailure = .none
  | new | running | canceled | waiting => false

end RunStatus

namespace Run

/-- What the last execution of a node put out on a port (`Run::node_output`). -/
def nodeOutput? (r : Run) (node : String) (port : Nat) : Option Items :=
  (r.state.tasks.lastTask? node).map (·.port port)

/-- How often a node was executed (`Run::task_count`). -/
def taskCount (r : Run) (node : String) : Nat := (r.state.tasks.tasks node).length

/-! ## As JSON -/

/-- A run as JSON. -/
def encode (r : Run) : Json :=
  .obj ([("id", .str r.id), ("workflowId", .str r.workflowId), ("mode", .str r.mode.name),
      ("status", .str r.status.name), ("finished", .bool r.finished),
      ("startedAt", r.startedAt.encode)] ++
    Json.memberIf "stoppedAt" (r.stoppedAt.map Time.Instant.encode) ++
    Json.memberIf "waitTill" (r.waitTill.map Time.Instant.encode) ++
    [("needsDelete", .bool r.needsDelete), ("data", r.state.encode)])

/-- A run from JSON. -/
def decode : Json.Decoder Run := fun v => do
  let [id, workflowId, mode, status, finished, startedAt, stoppedAt, waitTill, needsDelete, state] ←
    Json.fields
      ["id", "workflowId", "mode", "status", "finished", "startedAt", "stoppedAt", "waitTill",
        "needsDelete", "data"] v | none
  return {
    id := ← id.required Json.Decode.string
    workflowId := ← workflowId.required Json.Decode.string
    mode := ← mode.required (Json.Decode.choice RunMode.names)
    status := ← status.required (Json.Decode.choice RunStatus.names)
    finished := ← finished.required Json.Decode.bool
    startedAt := ← startedAt.required Time.Instant.decode
    stoppedAt := ← stoppedAt.optional Time.Instant.decode
    waitTill := ← waitTill.optional Time.Instant.decode
    needsDelete := ← needsDelete.required Json.Decode.bool
    state := ← state.required RunState.decode }

end Run

end Conveyor
