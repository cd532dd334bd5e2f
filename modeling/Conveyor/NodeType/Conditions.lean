/-
The node types that decide about items.

Both resolve their conditions for every item. One keeps the items for which they hold, the other one
puts them on its first port and all others on its second.
-/
import Conveyor.NodeType.Basic

set_option autoImplicit false

namespace Conveyor.NodeType

/-- What both node types declare (`conditions_spec`). -/
def conditionsSpec (name displayName : String) : Parameter.Spec :=
  { name := name, displayName := displayName
    properties :=
      [{ name := "conditions", kind := .filter,
         default := .obj [("conditions", .arr []), ("combinator", .str "and")] }] }

/-- Whether an extracted value lets an item pass. -/
def isTrue : Json → Bool
  | .bool b => b
  | _ => false

/-- Whether the conditions hold for an item. -/
def holdsFor (i : NodeInput) (index : Nat) : Except Parameter.Error Bool :=
  (i.get "conditions" index .extracted).map isTrue

/-- The items that pass and those that do not, counted from an index on. -/
def partition (i : NodeInput) (index : Nat) : Items → Except Parameter.Error (Items × Items)
  | [] => .ok ([], [])
  | item :: items =>
    match holdsFor i index with
    | .error e => .error e
    | .ok passes =>
      (partition i (index + 1) items).map fun (yes, no) =>
        if passes then (item :: yes, no) else (yes, item :: no)

/-- Keeps the items that pass (`FilterNode`). -/
def filter : NodeType where
  spec := conditionsSpec "filter" "Filter"
  execute i := .ofExcept
    ((Parameter.Error.lift (partition i 0 i.mainItems)).map fun p => .output [p.1])

/-- Parts the items that pass from those that do not (`IfNode`). -/
def branch : NodeType where
  spec := conditionsSpec "if" "If"
  outputs := 2
  execute i := .ofExcept
    ((Parameter.Error.lift (partition i 0 i.mainItems)).map fun p => .output [p.1, p.2])

end Conveyor.NodeType
