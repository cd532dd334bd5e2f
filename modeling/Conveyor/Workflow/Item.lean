/-
Items, the data that flows between nodes.

An item carries a JSON object and, if it has any, attachments by name. What a script or a host hands
over becomes items here: an object with a `json` object is an item already, and any other object is
the JSON of one.
-/
import Conveyor.Json.Decode

set_option autoImplicit false

namespace Conveyor

/-- A file that travels with an item (`BinaryData`). -/
structure Attachment where
  data : String
  mimeType : String
  fileName : Option String

/-- One unit of data. -/
structure Item where
  json : Json.Object := []
  binary : Option (Named Attachment) := none
  deriving Inhabited

/-- The items on one port (`NodeData`). -/
abbrev Items := List Item

namespace Attachment

/-- An attachment as JSON. -/
def encode (a : Attachment) : Json :=
  .obj ([("data", .str a.data), ("mimeType", .str a.mimeType)] ++
    Json.memberIf "fileName" (a.fileName.map .str))

/-- An attachment from JSON. -/
def decode : Json.Decoder Attachment := fun v => do
  let [data, mimeType, fileName] ← Json.fields ["data", "mimeType", "fileName"] v | none
  return {
    data := ← data.required Json.Decode.string
    mimeType := ← mimeType.required Json.Decode.string
    fileName := ← fileName.optional Json.Decode.string }

end Attachment

namespace Item

/-- Named attachments as JSON. -/
def encodeAttachments (b : Named Attachment) : Json :=
  .obj (b.map fun p => (p.1, p.2.encode))

/-- Named attachments from JSON. -/
def decodeAttachments : Json.Decoder (Named Attachment) := Json.Decode.dict Attachment.decode

/-- An item as JSON. -/
def encode (i : Item) : Json :=
  .obj (("json", .obj i.json) :: Json.memberIf "binary" (i.binary.map encodeAttachments))

/-- An item from JSON. -/
def decode : Json.Decoder Item := fun v => do
  let [json, binary] ← Json.fields ["json", "binary"] v | none
  return {
    json := ← json.required Json.Decode.object
    binary := ← binary.optional decodeAttachments }

/-- An item that carries a value; what is no object is kept under `value` (`Item::from_json`). -/
def ofValue : Json → Item
  | .obj o => { json := o }
  | v => { json := [("value", v)] }

/-- An object as an item: one with a `json` object is an item already (`item_from_object`). An empty
array counts as an empty object there, and attachments that cannot be read are left out. -/
def ofObject (o : Json.Object) : Item :=
  match o.get? "json" with
  | some (.obj json) => { json := json, binary := attached o }
  | some (.arr []) => { json := [], binary := attached o }
  | _ => { json := o }
where
  attached (o : Json.Object) : Option (Named Attachment) :=
    ((o.get? "binary").bind decodeAttachments).filter fun b => !b.isEmpty

/-- A value as an item, if it is an object (`item_from_value`). -/
def ofValue? : Json → Option Item
  | .obj o => some (ofObject o)
  | _ => none

end Item

end Conveyor
