/-
The node types that a host knows, by name.
-/
import Conveyor.NodeType.Basic

set_option autoImplicit false

namespace Conveyor

/-- Node types by name (`NodeRegistry`). -/
abbrev Registry := Named NodeType

namespace Registry

/-- Adds a node type under the name it declares; gives the one it replaces
(`NodeRegistry::register`). -/
def register (r : Registry) (t : NodeType) : Option NodeType × Registry :=
  (r.get? t.spec.name, r.insert t.spec.name t)

/-- Removes a node type; tells whether it was there (`NodeRegistry::unregister`). -/
def unregister (r : Registry) (name : String) : Bool × Registry := (r.contains name, r.erase name)

/-- The declaration of a node type (`NodeRegistry::spec`). -/
def spec? (r : Registry) (name : String) : Option Parameter.Spec :=
  (r.get? name).map NodeType.spec

/-- The category of a node type (`NodeRegistry::category`). -/
def category? (r : Registry) (name : String) : Option Category :=
  (r.get? name).map NodeType.category

/-- How many output ports a node type has; one if it is not known (`NodeExecutor::output_count`). -/
def outputs (r : Registry) (name : String) : Nat := ((r.get? name).map NodeType.outputs).getD 1

/-- The names of the node types in order (`NodeRegistry::list_types`). -/
def list (r : Registry) : List String := (Named.sorted r).map Prod.fst

/-- A character inside a quoted name. -/
def escaped (c : Char) : List Char :=
  if c = '"' || c = '\\' then ['\\', c]
  else if c = '\n' then ['\\', 'n']
  else if c = '\t' then ['\\', 't']
  else if c = '\r' then ['\\', 'r']
  else if c.toNat = 0 then ['\\', '0']
  else if c.toNat < 32 || (127 ≤ c.toNat && c.toNat < 160) then
    "\\u\x7b".toList ++ Nat.toDigits 16 c.toNat ++ ['\x7d']
  else [c]

/-- A name in quotes. -/
def quoted (name : String) : String :=
  "\"" ++ String.ofList (name.toList.flatMap escaped) ++ "\""

/-- The names of the node types as text. -/
def summary (r : Registry) : String :=
  "NodeRegistry \x7b types: [" ++ ", ".intercalate (r.list.map quoted) ++ "] \x7d"

end Registry

end Conveyor
