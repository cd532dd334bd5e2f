/-
The node types that every host has.
-/
import Conveyor.NodeType.Code
import Conveyor.NodeType.Conditions
import Conveyor.NodeType.Fields
import Conveyor.NodeType.Merge
import Conveyor.NodeType.Registry

set_option autoImplicit false

namespace Conveyor

/-- The built-in node types (`register_builtin`). -/
def NodeType.builtin : List NodeType :=
  [manualTrigger, noOp, setFields, filter, branch, code, merge, wait, stopAndError]

/-- The registry of a host that adds no node types (`NodeRegistry::with_builtin`). -/
def Registry.builtin : Registry := NodeType.builtin.map fun t => (t.spec.name, t)

end Conveyor
