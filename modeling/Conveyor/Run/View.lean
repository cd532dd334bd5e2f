/-
What expressions and scripts of a node see of the run.

They see the items on the node's first input, the last output of every node that has run, the
variables of the workflow, and which run this is.
-/
import Conveyor.Run.Basic
import Conveyor.Script.Sandbox
import Conveyor.Template.Evaluate

set_option autoImplicit false

namespace Conveyor

/-- What a node sees of the run it is executed in (`WorkflowDataProxy`). -/
structure View where
  workflow : Workflow
  node : Node
  items : Items := []
  tasks : RunData := []
  executionId : String := ""
  mode : RunMode := .manual
  /-- How often the node was executed before. -/
  runIndex : Nat := 0

namespace View

/-- The first output of the last task of every node that has run. -/
def nodeOutputs (v : View) : Named Items :=
  v.tasks.filterMap fun p => p.2.getLast?.map fun t => (p.1, t.port 0)

/-- The variables that scripts see for an item. -/
def scriptVariables (v : View) (itemIndex : Nat) : Json.Object :=
  [("workflow", .obj [("id", .str v.workflow.id), ("name", .str v.workflow.name)]),
    ("execution", .obj [("id", .str v.executionId), ("mode", .str v.mode.name)]),
    ("vars", .obj v.workflow.settings.vars), ("runIndex", Json.ofNat v.runIndex),
    ("itemIndex", Json.ofNat itemIndex)]

/-- What scripts are given for an item (`WorkflowDataProxy::bindings`). -/
def bindings (v : View) (itemIndex : Nat) (helpers : Script.Helpers) : Script.Bindings :=
  { itemIndex := itemIndex, items := v.items, nodeOutputs := v.nodeOutputs,
    vars := v.scriptVariables itemIndex, helpers := helpers }

/-- Runs code of a template for an item (`Expression::run_fragment`). -/
def runner (v : View) (box : Script.Sandbox) (itemIndex : Nat) : Template.Runner :=
  box.runCode (v.bindings itemIndex box.helpers)

end View

end Conveyor
