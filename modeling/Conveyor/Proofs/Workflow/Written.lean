/-
Workflows and items as they are written.

A workflow is written with all its fields, those with defaults too, so nothing has to be told of
what is left out but of the attachments of items. What has to be known is that numbers are in their
ranges, as the program can hold no others, and that coordinates are finite, as no other float has a
number in JSON.
-/
import Conveyor.Proofs.Decimal.Bits
import Conveyor.Proofs.Json.Record
import Conveyor.Workflow.Basic

set_option autoImplicit false

namespace Conveyor

open Json

/-! ## Items -/

theorem Attachment.decode_encode (a : Attachment) : decode a.encode = some a := by
  simp [decode, encode, fields, Named.get?_cons, Decode.string]

theorem Item.decodeAttachments_encode (b : Named Attachment) :
    decodeAttachments (encodeAttachments b) = some b :=
  dict_map fun p _ => p.2.decode_encode

theorem Item.decode_encode (i : Item) : decode i.encode = some i := by
  have binary : (i.binary.map encodeAttachments).elim (some none) (Decode.orNull decodeAttachments)
      = some i.binary :=
    optional_member (fun b _ => decodeAttachments_encode b) nofun
  simp [decode, encode, fields, Named.get?_cons, Decode.object, binary]

/-! ## Connections -/

/-- A target whose port has 64 bits comes back. -/
theorem Target.decode_encode {t : Target} (fits : t.index < 2 ^ 64) : decode t.encode = some t := by
  simp [decode, encode, fields, Named.get?_cons, Decode.string, nat_ofNat fits]

theorem Ports.decode_encode {ports : Ports}
    (fits : ∀ targets ∈ ports, ∀ t ∈ targets, t.index < 2 ^ 64) :
    decode ports.encode = some ports :=
  list_map fun targets mem => list_map fun t here => Target.decode_encode (fits targets mem t here)

/-- The ports of all connections have 64 bits. -/
def Connections.Fits (c : Connections) : Prop :=
  ∀ p ∈ c, ∀ q ∈ p.2, ∀ targets ∈ q.2, ∀ t ∈ targets, t.index < 2 ^ 64

theorem Connections.decode_encode {c : Connections} (fits : c.Fits) : decode c.encode = some c := by
  have types : ∀ p ∈ c, Decode.dict Ports.decode (.obj (p.2.map fun q => (q.1, q.2.encode)))
      = some p.2 :=
    fun p hp => dict_map fun q hq => Ports.decode_encode (fits p hp q hq)
  exact @dict_map _ (Decode.dict Ports.decode)
    (fun types => .obj (types.map fun q => (q.1, q.2.encode))) c types

/-! ## Nodes -/

/-- The coordinates of a position are finite. -/
structure Position.Finite (p : Position) : Prop where
  x : Decimal.Finite (Float.ofBits p.x)
  y : Decimal.Finite (Float.ofBits p.y)

theorem Position.decode_encode {p : Position} (finite : p.Finite) : decode p.encode = some p := by
  simp [decode, encode, Decode.float, Number.toFloat, Decimal.toBits_ofBits finite.x,
    Decimal.toBits_ofBits finite.y]

theorem ErrorPolicy.decode_encode (policy : ErrorPolicy) :
    Decode.choice names policy.encode = some policy := by
  cases policy <;> rfl

theorem Retention.decode_encode (choice : Retention) :
    Decode.choice names choice.encode = some choice := by
  cases choice <;> rfl

/-- What the program can hold of a node: a version of 32 bits, and a place on the canvas. -/
structure Node.Fits (n : Node) : Prop where
  version : n.typeVersion < 2 ^ 32
  position : n.position.Finite

theorem Node.decode_encode {n : Node} (fits : n.Fits) : decode n.encode = some n := by
  have version : Decode.intIn 0 maxVersion (ofNat n.typeVersion) = some (n.typeVersion : Int) :=
    intIn_ofNat (Nat.le_sub_one_of_lt fits.version)
  simp [decode, encode, fields, Named.get?_cons, Decode.string, Decode.bool, Decode.object, version,
    Position.decode_encode fits.position, ErrorPolicy.decode_encode]

/-! ## Workflows -/

theorem Settings.decode_encode (s : Settings) : decode s.encode = some s := by
  simp [decode, encode, fields, Named.get?_cons, Decode.object, Retention.decode_encode]

/-- What the program can hold of a workflow. -/
structure Workflow.Fits (w : Workflow) : Prop where
  nodes : ∀ n ∈ w.nodes, n.Fits
  connections : w.connections.Fits

/-- **A workflow comes back.** -/
theorem Workflow.decode_encode {w : Workflow} (fits : w.Fits) : decode w.encode = some w := by
  have nodes : Decode.list Node.decode (.arr (w.nodes.map Node.encode)) = some w.nodes :=
    list_map fun n mem => Node.decode_encode (fits.nodes n mem)
  simp [decode, encode, fields, Named.get?_cons, Decode.string, Decode.object, nodes,
    Connections.decode_encode fits.connections, Settings.decode_encode]

end Conveyor
