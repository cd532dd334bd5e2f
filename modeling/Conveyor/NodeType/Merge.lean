/-
The node type that merges the items of its two input ports.
-/
import Conveyor.NodeType.Flow

set_option autoImplicit false

namespace Conveyor.NodeType

/-- What the node type declares. -/
def mergeSpec : Parameter.Spec :=
  { name := "merge", displayName := "Merge"
    properties :=
      [{ name := "mode", kind := .options, default := .str "append",
         choices := choicesOf ["append", "combineByPosition", "chooseBranch"] },
       { name := "output", kind := .options, default := .str "input1",
         choices := choicesOf ["input1", "input2"],
         display := shownFor "mode" "chooseBranch" }] }

/-- Values by name with those of another list put over them. -/
def overlay {α : Type} (m upper : Named α) : Named α := upper.foldl (fun m p => m.insert p.1 p.2) m

/-- One item of two; what the second one has wins. -/
def combine (a b : Item) : Item where
  json := overlay a.json b.json
  binary :=
    match a.binary, b.binary with
    | some l, some r => some (overlay l r)
    | l, r => l <|> r

/-- The merged items (`MergeNode::merge`). -/
def mergeItems (i : NodeInput) : Except NodeError Items := do
  match ← Parameter.Error.lift (i.getString "mode" 0) with
  | "append" => .ok (i.items 0 ++ i.items 1)
  | "combineByPosition" => .ok (List.zipWith combine (i.items 0) (i.items 1))
  | "chooseBranch" =>
    match ← Parameter.Error.lift (i.getString "output" 0) with
    | "input1" => .ok (i.items 0)
    | "input2" => .ok (i.items 1)
    | other => .error (.unknownBranch other)
  | other => .error (.unknownMode other)

/-- Merges the items of two input ports (`MergeNode`). -/
def merge : NodeType where
  spec := mergeSpec
  execute i := .ofExcept ((mergeItems i).map fun items => .output [items])

end Conveyor.NodeType
