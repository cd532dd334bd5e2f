/-
Connections between nodes.

A connection leads from an output port of its source to an input port of its target and has a type.
Only connections of the type `main` carry items. The targets of a port keep the order in which they
were connected, and a connection made twice is there twice.
-/
import Conveyor.Json.Decode
import Conveyor.Named

set_option autoImplicit false

namespace Conveyor

/-- Where a connection ends: an input port of a node (`ConnectionTarget`). -/
structure Target where
  node : String
  index : Nat
  deriving DecidableEq

/-- The targets of each output port (`NodeConnections`). -/
abbrev Ports := List (List Target)

/-- The ports of each source, by the type of the connections. -/
abbrev Connections := Named (Named Ports)

/-- The type of connections that carry items (`MAIN_CONNECTION`). -/
def mainType : String := "main"

namespace Ports

/-- Adds a target to an output port; ports in between are there and empty. -/
def connect : Ports → (output : Nat) → Target → Ports
  | [], 0, t => [[t]]
  | [], n + 1, t => [] :: connect [] n t
  | p :: ps, 0, t => (p ++ [t]) :: ps
  | p :: ps, n + 1, t => p :: connect ps n t

/-- The targets of an output port. -/
def targets (ps : Ports) (output : Nat) : List Target := ps.getD output []

end Ports

/-- A connection that carries items. -/
structure Edge where
  source : String
  output : Nat
  target : Target
  deriving DecidableEq

namespace Connections

/-- The output ports of a source (`Connections::main_outputs`). -/
def outputs (c : Connections) (source : String) : Ports :=
  ((c.get? source).bind (·.get? mainType)).getD []

/-- Connects an output port to an input port (`Connections::connect`). -/
def connect (c : Connections) (source : String) (output : Nat) (target : String) (input : Nat) :
    Connections :=
  c.update source fun types =>
    (types.getD []).update mainType fun ports => (ports.getD []).connect output ⟨target, input⟩

/-- The connections that leave the ports of a source, numbered from `output` on. -/
def edgesFrom (source : String) (output : Nat) : Ports → List Edge
  | [] => []
  | targets :: ports => targets.map (Edge.mk source output) ++ edgesFrom source (output + 1) ports

/-- Every connection that carries items (`Connections::iter_main`). -/
def edges (c : Connections) : List Edge :=
  c.flatMap fun p => edgesFrom p.1 0 ((Named.get? p.2 mainType).getD [])

end Connections

/-! ## As JSON -/

namespace Target

/-- A target as JSON. -/
def encode (t : Target) : Json := .obj [("node", .str t.node), ("index", Json.ofNat t.index)]

/-- A target from JSON; the port may be left out. -/
def decode : Json.Decoder Target := fun v => do
  let [node, index] ← Json.fields ["node", "index"] v | none
  return {
    node := ← node.required Json.Decode.string
    index := ← index.orElse Json.Decode.nat 0 }

end Target

namespace Ports

/-- Ports as JSON. -/
def encode (ps : Ports) : Json := .arr (ps.map fun targets => .arr (targets.map Target.encode))

/-- Ports from JSON. -/
def decode : Json.Decoder Ports := Json.Decode.list (Json.Decode.list Target.decode)

end Ports

namespace Connections

/-- Connections as JSON. -/
def encode (c : Connections) : Json :=
  .obj (c.map fun p => (p.1, .obj (p.2.map fun q => (q.1, q.2.encode))))

/-- Connections from JSON. -/
def decode : Json.Decoder Connections := Json.Decode.dict (Json.Decode.dict Ports.decode)

end Connections

end Conveyor
