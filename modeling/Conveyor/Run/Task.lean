/-
Tasks, the records of what nodes did in a run.

A task is one execution of a node: when it began and how long it took, what it put out, port by
port, or why it failed, and from which ports its items came. Tasks are numbered in the order of
their execution, over all nodes of a run.
-/
import Conveyor.Time.Reader
import Conveyor.Workflow.Item

set_option autoImplicit false

namespace Conveyor

/-- Where items came from: an output port of a node, and the input port they arrived at
(`SourceRef`). -/
structure Source where
  node : String
  output : Nat
  input : Nat
  deriving DecidableEq

/-- Why a node failed. -/
structure TaskError where
  message : String
  description : Option String := none
  deriving DecidableEq

/-- Whether a task let the run go on. -/
inductive TaskStatus where
  | success
  | error
  deriving DecidableEq

/-- One execution of a node (`TaskData`). -/
structure Task where
  index : Nat
  startTime : Time.Instant
  /-- How many milliseconds the execution took. -/
  elapsed : Nat
  status : TaskStatus
  output : List Items
  error : Option TaskError := none
  sources : List Source := []

/-- The tasks of each node, oldest first. -/
abbrev RunData := Named (List Task)

/-- The items that a task put out on a port (`TaskData::output`). -/
def Task.port (t : Task) (port : Nat) : Items := t.output.getD port []

namespace RunData

/-- The tasks of a node. -/
def tasks (d : RunData) (node : String) : List Task := (d.get? node).getD []

/-- The last task of a node (`RunExecutionData::last_task`). -/
def lastTask? (d : RunData) (node : String) : Option Task := (d.tasks node).getLast?

/-- Records a task of a node. -/
def record (d : RunData) (node : String) (t : Task) : RunData :=
  d.update node fun ts => ts.getD [] ++ [t]

/-- Every task with its node, node by node in the order of their names. -/
def all (d : RunData) : List (String × Task) :=
  (Named.sorted d).flatMap fun p => p.2.map (p.1, ·)

/-- The first number after those of all tasks (`next_execution_index`). -/
def nextIndex (d : RunData) : Nat := (d.all.map fun p => p.2.index + 1).foldl max 0

/-- The names of the executed nodes in the order of execution, once for each task
(`Run::execution_order`). -/
def order (d : RunData) : List String :=
  (d.all.mergeSort fun a b => a.2.index ≤ b.2.index).map Prod.fst

end RunData

/-! ## As JSON -/

namespace Time.Instant

/-- A moment as JSON. -/
def encode (t : Instant) : Json := .str t.zuluText

/-- A moment from JSON. -/
def decode : Json.Decoder Instant
  | .str s => Reader.internet s.toList
  | _ => none

end Time.Instant

namespace Source

/-- A source as JSON. -/
def encode (s : Source) : Json :=
  .obj [("previousNode", .str s.node), ("previousOutput", Json.ofNat s.output),
    ("input", Json.ofNat s.input)]

/-- A source from JSON. -/
def decode : Json.Decoder Source := fun v => do
  let [node, output, input] ← Json.fields ["previousNode", "previousOutput", "input"] v | none
  return {
    node := ← node.required Json.Decode.string
    output := ← output.required Json.Decode.nat
    input := ← input.required Json.Decode.nat }

end Source

namespace TaskError

/-- An error as JSON. -/
def encode (e : TaskError) : Json :=
  .obj (("message", .str e.message) :: Json.memberIf "description" (e.description.map .str))

/-- An error from JSON. -/
def decode : Json.Decoder TaskError := fun v => do
  let [message, description] ← Json.fields ["message", "description"] v | none
  return {
    message := ← message.required Json.Decode.string
    description := ← description.optional Json.Decode.string }

end TaskError

namespace TaskStatus

/-- The name of a status. -/
def name : TaskStatus → String
  | success => "success"
  | error => "error"

/-- The statuses by name. -/
def names : Named TaskStatus := [("success", success), ("error", error)]

end TaskStatus

/-- Lists of items as JSON. -/
def encodePorts (ports : List Items) : Json :=
  .arr (ports.map fun items => .arr (items.map Item.encode))

/-- Lists of items from JSON. -/
def decodePorts : Json.Decoder (List Items) := Json.Decode.list (Json.Decode.list Item.decode)

namespace Task

/-- A task as JSON. -/
def encode (t : Task) : Json :=
  .obj ([("executionIndex", Json.ofNat t.index), ("startTime", t.startTime.encode),
      ("executionTimeMs", Json.ofNat t.elapsed), ("status", .str t.status.name),
      ("data", encodePorts t.output)] ++
    Json.memberIf "error" (t.error.map TaskError.encode) ++
    [("source", .arr (t.sources.map Source.encode))])

/-- A task from JSON. -/
def decode : Json.Decoder Task := fun v => do
  let [index, startTime, elapsed, status, output, error, sources] ←
    Json.fields
      ["executionIndex", "startTime", "executionTimeMs", "status", "data", "error", "source"]
      v | none
  return {
    index := ← index.orElse Json.Decode.nat 0
    startTime := ← startTime.required Time.Instant.decode
    elapsed := ← elapsed.required Json.Decode.nat
    status := ← status.required (Json.Decode.choice TaskStatus.names)
    output := ← output.required decodePorts
    error := ← error.optional TaskError.decode
    sources := ← sources.orElse (Json.Decode.list Source.decode) [] }

end Task

namespace RunData

/-- Tasks as JSON. -/
def encode (d : RunData) : Json := .obj (d.map fun p => (p.1, .arr (p.2.map Task.encode)))

/-- Tasks from JSON. -/
def decode : Json.Decoder RunData := Json.Decode.dict (Json.Decode.list Task.decode)

end RunData

end Conveyor
