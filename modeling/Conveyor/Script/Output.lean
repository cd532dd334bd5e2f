/-
What scripts return, as items.
-/
import Conveyor.Script.Error
import Conveyor.Workflow.Item

set_option autoImplicit false

namespace Conveyor.Script

/-- The entries of an array as items, counted from `index` on. -/
def itemsOfEntries (index : Nat) : List Json → Except OutputError Items
  | [] => .ok []
  | v :: vs =>
    match Item.ofValue? v with
    | some item => (itemsOfEntries (index + 1) vs).map (item :: ·)
    | none => .error (.entryNotObject index v.typeName)

/-- The items a value stands for: an array of objects, one object, or none for an empty object
(`items_from_output`). -/
def itemsOf : Json → Except OutputError Items
  | .arr vs => itemsOfEntries 0 vs
  | .obj [] => .ok []
  | .obj o => .ok [Item.ofObject o]
  | .null => .error .nothingReturned
  | v => .error (.notItems v.typeName)

/-- The item a value stands for (`item_from_output`). -/
def itemOf (v : Json) : Except OutputError Item :=
  match Item.ofValue? v with
  | some item => .ok item
  | none => .error (.notObject v.typeName)

end Conveyor.Script
