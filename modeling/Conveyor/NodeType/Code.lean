/-
The node type that runs a script, once for all items or once for each of them.
-/
import Conveyor.NodeType.Flow

set_option autoImplicit false

namespace Conveyor.NodeType

/-- The script of a node that has none of its own (`DEFAULT_CODE`). -/
def defaultCode : String := "return $input.all()"

/-- What the node type declares. -/
def codeSpec : Parameter.Spec :=
  { name := "code", displayName := "Code"
    properties :=
      [{ name := "mode", kind := .options, default := .str "runOnceForAllItems",
         choices := choicesOf ["runOnceForAllItems", "runOnceForEachItem"] },
       { name := "code", kind := .string, default := .str defaultCode }] }

/-- What scripts of the node are given for an item. -/
def scriptBindings (i : NodeInput) (index : Nat) : Script.Bindings :=
  i.view.bindings index i.resolver.box.helpers

/-- Runs a script for each item, counted from an index on; attachments are kept unless the script
returns its own. -/
def runForEach (i : NodeInput) (code : String) (index : Nat) : Items → Except Script.Error Items
  | [] => .ok []
  | item :: items =>
    match i.resolver.box.runPerItem (scriptBindings i index) code with
    | .error e => .error e
    | .ok result =>
      (runForEach i code (index + 1) items).map fun rest =>
        { result with binary := result.binary <|> item.binary } :: rest

/-- The items that the node's script makes (`CodeNode::run`). -/
def runCode (i : NodeInput) : Except NodeError Items := do
  let mode ← Parameter.Error.lift (i.getString "mode" 0)
  match ← Parameter.Error.lift (i.get "code" 0 .raw) with
  | .str code =>
    match mode with
    | "runOnceForAllItems" =>
      Script.Error.lift (i.resolver.box.runAllItems (scriptBindings i 0) code)
    | "runOnceForEachItem" => Script.Error.lift (runForEach i code 0 i.mainItems)
    | other => .error (.unknownMode other)
  | _ => .error .codeNotText

/-- Runs a script (`CodeNode`). -/
def code : NodeType where
  spec := codeSpec
  execute i := .ofExcept ((runCode i).map fun items => .output [items])

end Conveyor.NodeType
