/-
Workflows: nodes, what connects them, and settings.

A node has a type, which tells what it does, and parameters, which are read when it runs. Nodes are
known by their names. The position of a node on the canvas decides which of several nodes goes
first.
-/
import Conveyor.Workflow.Connection
import Conveyor.Workflow.Item

set_option autoImplicit false

namespace Conveyor

/-- What a failure of a node does to the run. -/
inductive ErrorPolicy where
  | stopWorkflow
  | continueRegularOutput
  | continueErrorOutput
  deriving DecidableEq

/-- A place on the canvas; the second coordinate grows downwards. A coordinate is a float and is
kept as its bits, which tell its place in the order of all floats. -/
structure Position where
  x : UInt64 := 0
  y : UInt64 := 0
  deriving DecidableEq

/-- A node of a workflow. -/
structure Node where
  id : String
  name : String
  type : String
  typeVersion : Nat := 1
  position : Position := {}
  disabled : Bool := false
  onError : ErrorPolicy := .stopWorkflow
  parameters : Json.Object := []

/-- Whether finished runs are kept (`SaveDataPolicy`). -/
inductive Retention where
  | all
  | none
  deriving DecidableEq

/-- Settings of a workflow (`WorkflowSettings`). -/
structure Settings where
  onSuccess : Retention := .all
  onFailure : Retention := .all
  vars : Json.Object := []

/-- A workflow. -/
structure Workflow where
  id : String
  name : String
  nodes : List Node
  connections : Connections := []
  settings : Settings := {}
  staticData : Json.Object := []

/-- Whether the run goes on when the node fails (`Node::continue_on_fail`). -/
def Node.continuesOnFail (n : Node) : Bool := n.onError != .stopWorkflow

/-- The names of the nodes. -/
def Workflow.nodeNames (w : Workflow) : List String := w.nodes.map Node.name

/-! ## As JSON -/

namespace ErrorPolicy

/-- The policies by name. -/
def names : Named ErrorPolicy :=
  [("stopWorkflow", stopWorkflow), ("continueRegularOutput", continueRegularOutput),
    ("continueErrorOutput", continueErrorOutput)]

/-- A policy as JSON. -/
def encode : ErrorPolicy → Json
  | stopWorkflow => .str "stopWorkflow"
  | continueRegularOutput => .str "continueRegularOutput"
  | continueErrorOutput => .str "continueErrorOutput"

end ErrorPolicy

namespace Position

/-- A position as JSON. -/
def encode (p : Position) : Json :=
  .arr [.num (.float (Float.ofBits p.x)), .num (.float (Float.ofBits p.y))]

/-- A position from JSON. -/
def decode : Json.Decoder Position
  | .arr [x, y] => do return ⟨(← Json.Decode.float x).toBits, (← Json.Decode.float y).toBits⟩
  | _ => none

end Position

namespace Node

/-- The greatest version of a node type. -/
def maxVersion : Int := 2 ^ (32 : Nat) - 1

/-- A node as JSON. -/
def encode (n : Node) : Json :=
  .obj [("id", .str n.id), ("name", .str n.name), ("type", .str n.type),
    ("typeVersion", Json.ofNat n.typeVersion), ("position", n.position.encode),
    ("disabled", .bool n.disabled), ("onError", n.onError.encode),
    ("parameters", .obj n.parameters)]

/-- A node from JSON. -/
def decode : Json.Decoder Node := fun v => do
  let [id, name, type, typeVersion, position, disabled, onError, parameters] ←
    Json.fields ["id", "name", "type", "typeVersion", "position", "disabled", "onError",
      "parameters"] v | none
  return {
    id := ← id.required Json.Decode.string
    name := ← name.required Json.Decode.string
    type := ← type.required Json.Decode.string
    typeVersion := (← typeVersion.orElse (Json.Decode.intIn 0 maxVersion) 1).toNat
    position := ← position.orElse Position.decode {}
    disabled := ← disabled.orElse Json.Decode.bool false
    onError := ← onError.orElse (Json.Decode.choice ErrorPolicy.names) .stopWorkflow
    parameters := ← parameters.orElse Json.Decode.object [] }

end Node

namespace Retention

/-- The choices by name. -/
def names : Named Retention := [("all", all), ("none", none)]

/-- A choice as JSON. -/
def encode : Retention → Json
  | all => .str "all"
  | none => .str "none"

end Retention

namespace Settings

/-- Settings as JSON. -/
def encode (s : Settings) : Json :=
  .obj [("saveDataSuccessExecution", s.onSuccess.encode),
    ("saveDataErrorExecution", s.onFailure.encode), ("variables", .obj s.vars)]

/-- Settings from JSON. -/
def decode : Json.Decoder Settings := fun v => do
  let [onSuccess, onFailure, vars] ←
    Json.fields ["saveDataSuccessExecution", "saveDataErrorExecution", "variables"] v | none
  return {
    onSuccess := ← onSuccess.orElse (Json.Decode.choice Retention.names) .all
    onFailure := ← onFailure.orElse (Json.Decode.choice Retention.names) .all
    vars := ← vars.orElse Json.Decode.object [] }

end Settings

namespace Workflow

/-- A workflow as JSON. -/
def encode (w : Workflow) : Json :=
  .obj [("id", .str w.id), ("name", .str w.name), ("nodes", .arr (w.nodes.map Node.encode)),
    ("connections", w.connections.encode), ("settings", w.settings.encode),
    ("staticData", .obj w.staticData)]

/-- A workflow from JSON. -/
def decode : Json.Decoder Workflow := fun v => do
  let [id, name, nodes, connections, settings, staticData] ←
    Json.fields ["id", "name", "nodes", "connections", "settings", "staticData"] v | none
  return {
    id := ← id.required Json.Decode.string
    name := ← name.required Json.Decode.string
    nodes := ← nodes.required (Json.Decode.list Node.decode)
    connections := ← connections.orElse Connections.decode []
    settings := ← settings.orElse Settings.decode {}
    staticData := ← staticData.orElse Json.Decode.object [] }

end Workflow

end Conveyor
