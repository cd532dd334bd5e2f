/-
The state of a run between two executions of nodes.

The state holds what was done, the stack of what is to be done next, and the most recent output of
every node, which nodes with several inputs wait for. It is all that a paused run needs to go on.
-/
import Conveyor.Run.Task

set_option autoImplicit false

namespace Conveyor

/-- A node that is to be executed, with the items on its input ports and where they came from
(`ExecuteData`). -/
structure Entry where
  node : String
  inputs : List Items
  sources : List Source := []

/-- What is to be done (`ExecutionState`). -/
structure Agenda where
  /-- The next entry comes first. -/
  stack : List Entry := []
  /-- The most recent output of every node that has completed. -/
  outputs : Named (List Items) := []
  /-- Where the items of every node that was put on the stack came from. -/
  arrivals : Named (List Source) := []

/-- Why a run ended, and at which node. -/
structure RunError where
  message : String
  node : Option String := none
  deriving DecidableEq

/-- The state of a run (`RunExecutionData`). -/
structure RunState where
  startNode : Option String := none
  tasks : RunData := []
  lastNode : Option String := none
  error : Option RunError := none
  agenda : Agenda := {}
  waitTill : Option Time.Instant := none

/-- Items on one input port; the ports before it are empty (`ExecuteData::single`). -/
def Entry.single (node : String) (input : Nat) (items : Items) (sources : List Source) : Entry :=
  ⟨node, List.replicate input [] ++ [items], sources⟩

/-! ## As JSON -/

namespace Entry

/-- An entry as JSON. -/
def encode (e : Entry) : Json :=
  .obj [("node", .str e.node), ("inputs", encodePorts e.inputs),
    ("source", .arr (e.sources.map Source.encode))]

/-- An entry from JSON. -/
def decode : Json.Decoder Entry := fun v => do
  let [node, inputs, sources] ← Json.fields ["node", "inputs", "source"] v | none
  return {
    node := ← node.required Json.Decode.string
    inputs := ← inputs.required decodePorts
    sources := ← sources.orElse (Json.Decode.list Source.decode) [] }

end Entry

namespace Agenda

/-- An agenda as JSON. -/
def encode (a : Agenda) : Json :=
  .obj [("stack", .arr (a.stack.map Entry.encode)),
    ("waitingExecution", .obj (a.outputs.map fun p => (p.1, encodePorts p.2))),
    ("waitingExecutionSource",
      .obj (a.arrivals.map fun p => (p.1, .arr (p.2.map Source.encode))))]

/-- An agenda from JSON. -/
def decode : Json.Decoder Agenda := fun v => do
  let [stack, outputs, arrivals] ←
    Json.fields ["stack", "waitingExecution", "waitingExecutionSource"] v | none
  return {
    stack := ← stack.required (Json.Decode.list Entry.decode)
    outputs := ← outputs.required (Json.Decode.dict decodePorts)
    arrivals := ← arrivals.required (Json.Decode.dict (Json.Decode.list Source.decode)) }

end Agenda

namespace RunError

/-- An error as JSON. -/
def encode (e : RunError) : Json :=
  .obj (("message", .str e.message) :: Json.memberIf "node" (e.node.map .str))

/-- An error from JSON. -/
def decode : Json.Decoder RunError := fun v => do
  let [message, node] ← Json.fields ["message", "node"] v | none
  return {
    message := ← message.required Json.Decode.string
    node := ← node.optional Json.Decode.string }

end RunError

namespace RunState

/-- A state as JSON. -/
def encode (s : RunState) : Json :=
  .obj (Json.memberIf "startNode" (s.startNode.map .str) ++ [("runData", s.tasks.encode)] ++
    Json.memberIf "lastNodeExecuted" (s.lastNode.map .str) ++
    Json.memberIf "error" (s.error.map RunError.encode) ++ [("state", s.agenda.encode)] ++
    Json.memberIf "waitTill" (s.waitTill.map Time.Instant.encode))

/-- A state from JSON. -/
def decode : Json.Decoder RunState := fun v => do
  let [startNode, tasks, lastNode, error, agenda, waitTill] ←
    Json.fields ["startNode", "runData", "lastNodeExecuted", "error", "state", "waitTill"] v | none
  return {
    startNode := ← startNode.optional Json.Decode.string
    tasks := ← tasks.required RunData.decode
    lastNode := ← lastNode.optional Json.Decode.string
    error := ← error.optional RunError.decode
    agenda := ← agenda.required Agenda.decode
    waitTill := ← waitTill.optional Time.Instant.decode }

end RunState

end Conveyor
