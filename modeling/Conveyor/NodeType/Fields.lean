/-
The node type that sets fields of items.

Fields come as a list of names and values, or as one object. A name with dots in it is the path of a
nested field, unless the node says that names are to be taken as they are.
-/
import Conveyor.Json.Parser
import Conveyor.NodeType.Flow

set_option autoImplicit false

namespace Conveyor.NodeType

/-! ## Nested fields -/

/-- The parts of a dotted name. -/
def splitDots : List Char → List (List Char)
  | [] => [[]]
  | '.' :: cs => [] :: splitDots cs
  | c :: cs =>
    match splitDots cs with
    | [] => [[c]]
    | part :: parts => (c :: part) :: parts

/-- The keys of a dotted name. -/
def keysOf (name : String) : List String := (splitDots name.toList).map String.ofList

/-- The members of a value that is an object. -/
def membersOf : Option Json → Json.Object
  | some (.obj o) => o
  | _ => []

/-- Sets a nested field; what is no object on the way becomes one (`set_path`). -/
def setPath : Json.Object → List String → Json → Json.Object
  | o, [], _ => o
  | o, [key], v => o.insert key v
  | o, key :: rest, v => o.update key fun old => .obj (setPath (membersOf old) rest v)

/-! ## Assignments -/

/-- A field that is to be set (`FieldAssignment`). -/
structure Assignment where
  name : String
  value : Json := .null

/-- An assignment from JSON. -/
def Assignment.decode : Json.Decoder Assignment := fun v => do
  let [name, value] ← Json.fields ["name", "value"] v | none
  return {
    name := ← name.required Json.Decode.string
    value := ← value.orElse Json.Decode.any .null }

/-- Carries out an assignment; one without a name does nothing. -/
def Assignment.apply (dotted : Bool) (o : Json.Object) (a : Assignment) : Json.Object :=
  if a.name.isEmpty then o
  else if dotted then setPath o (keysOf a.name) a.value
  else o.insert a.name a.value

/-- The assignments of an object, which may be written as text (`raw_object`). -/
def assignmentsOf (v : Json) : Except NodeError (List Assignment) := do
  let v ← match v with
    | .str text =>
      match Json.parse? text with
      | some v => .ok v
      | none => .error .outputNotJson
    | v => .ok v
  match v with
  | .obj o => .ok (o.map fun p => ⟨p.1, p.2⟩)
  | v => .error (.outputNotObject v.typeName)

/-- The assignments for an item. -/
def assignments (i : NodeInput) (index : Nat) (mode : String) :
    Except NodeError (List Assignment) :=
  match mode with
  | "manual" =>
    Parameter.Error.lift
      (i.resolver.getAs i.view (Json.Decode.list Assignment.decode) "fields.values" none index)
  | "raw" => do
    assignmentsOf (← Parameter.Error.lift (i.get "jsonOutput" index .resolved))
  | other => .error (.unknownMode other)

/-! ## The node type -/

/-- The declaration of one assignment. -/
def assignmentSchemas : List Parameter.Schema :=
  [{ name := "name", kind := .string, default := .str "" }, { name := "value", kind := .json }]

/-- The declaration of a list of assignments. -/
def valuesSchema : Parameter.Schema :=
  { name := "values", kind := .collection, default := .arr [], options := assignmentSchemas }

/-- What the node type declares. -/
def setSpec : Parameter.Spec :=
  { name := "set", displayName := "Edit Fields"
    properties :=
      [{ name := "mode", kind := .options, default := .str "manual",
         choices := choicesOf ["manual", "raw"] },
       { name := "fields", kind := .fixedCollection, default := .obj [],
         display := shownFor "mode" "manual", options := [valuesSchema] },
       { name := "jsonOutput", kind := .json, default := .str "\x7b\x7d",
         display := shownFor "mode" "raw" },
       { name := "include", kind := .options, default := .str "all",
         choices := choicesOf ["all", "none"] },
       { name := "options", kind := .collection, default := .obj [],
         options :=
           [{ name := "dotNotation", kind := .boolean, default := .bool true }] }] }

/-- An item with its fields set (`SetNode::set_item`). -/
def setItem (i : NodeInput) (index : Nat) (item : Item) : Except NodeError Item := do
  let mode ← Parameter.Error.lift (i.getString "mode" index)
  let included ← Parameter.Error.lift (i.getString "include" index)
  let dotted ← Parameter.Error.lift (i.getBool "options.dotNotation" index)
  let fields ← assignments i index mode
  let start : Item := if included = "all" then item else {}
  return { start with json := fields.foldl (Assignment.apply dotted) start.json }

/-- Items with their fields set, counted from an index on. -/
def setItems (i : NodeInput) (index : Nat) : Items → Except NodeError Items
  | [] => .ok []
  | item :: items => do
    let item ← setItem i index item
    return item :: (← setItems i (index + 1) items)

/-- Sets fields of every item (`SetNode`). -/
def setFields : NodeType where
  spec := setSpec
  execute i := .ofExcept ((setItems i 0 i.mainItems).map fun items => .output [items])

end Conveyor.NodeType
