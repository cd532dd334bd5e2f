/-
Declarations of parameters.

A node type declares its parameters: their kinds, their defaults, when they are shown, and how a
value is extracted from them. Collections declare the parameters inside them in the same way.
-/
import Conveyor.Json.Decode

set_option autoImplicit false

namespace Conveyor.Parameter

/-- The kind of a parameter (`ParameterKind`). -/
inductive Kind where
  | string
  | number
  | boolean
  | dateTime
  | options
  | collection
  | fixedCollection
  | json
  | filter
  | resourceLocator
  deriving DecidableEq

/-- A value that can be chosen (`ParameterChoice`). -/
structure Choice where
  name : String
  value : Json

/-- When a parameter is shown: by the name of a parameter that decides, values to show for and
values to hide for (`DisplayOptions`). -/
structure DisplayRules where
  showFor : Named (List Json) := []
  hideFor : Named (List Json) := []

/-- How a value is extracted (`ExtractValue`). -/
inductive Extraction where
  /-- By the first match of a pattern. -/
  | pattern (regex : String)
  deriving DecidableEq

/-- A way in which a resource can be told. -/
structure LocatorMode where
  name : String
  extraction : Option Extraction := none

/-- The declaration of a parameter (`ParameterSchema`). -/
structure Schema where
  name : String
  kind : Kind
  default : Json := .null
  display : Option DisplayRules := none
  choices : List Choice := []
  /-- The parameters inside a collection. -/
  options : List Schema := []
  extraction : Option Extraction := none
  modes : List LocatorMode := []

/-- The declaration of a node type (`NodeSpec`). -/
structure Spec where
  name : String
  displayName : String
  version : Nat := 1
  properties : List Schema := []

/-- The declaration of a name inside a collection (`ParameterSchema::child`). -/
def Schema.child? (s : Schema) (name : String) : Option Schema := s.options.find? (·.name == name)

/-! ## As JSON -/

namespace Kind

/-- The name of a kind. -/
def name : Kind → String
  | string => "string"
  | number => "number"
  | boolean => "boolean"
  | dateTime => "dateTime"
  | options => "options"
  | collection => "collection"
  | fixedCollection => "fixedCollection"
  | json => "json"
  | filter => "filter"
  | resourceLocator => "resourceLocator"

/-- The kinds by name. -/
def names : Named Kind :=
  [string, number, boolean, dateTime, options, collection, fixedCollection, json, filter,
    resourceLocator].map fun k => (k.name, k)

end Kind

namespace Choice

/-- A choice as JSON. -/
def encode (c : Choice) : Json := .obj [("name", .str c.name), ("value", c.value)]

/-- A choice from JSON. -/
def decode : Json.Decoder Choice := fun v => do
  let [name, value] ← Json.fields ["name", "value"] v | none
  return {
    name := ← name.required Json.Decode.string
    value := ← value.required Json.Decode.any }

end Choice

namespace DisplayRules

/-- Values by name as JSON; nothing is written for none. -/
def encodeValues (name : String) (m : Named (List Json)) : Json.Object :=
  if m.isEmpty then [] else [(name, .obj (m.map fun p => (p.1, .arr p.2)))]

/-- Display rules as JSON. -/
def encode (r : DisplayRules) : Json :=
  .obj (encodeValues "show" r.showFor ++ encodeValues "hide" r.hideFor)

/-- Values by name from JSON. -/
def decodeValues : Json.Decoder (Named (List Json)) :=
  Json.Decode.dict (Json.Decode.list Json.Decode.any)

/-- Display rules from JSON. -/
def decode : Json.Decoder DisplayRules := fun v => do
  let [showFor, hideFor] ← Json.fields ["show", "hide"] v | none
  return {
    showFor := ← showFor.orElse decodeValues []
    hideFor := ← hideFor.orElse decodeValues [] }

end DisplayRules

namespace Extraction

/-- An extraction as JSON. -/
def encode : Extraction → Json
  | pattern regex => .obj [("type", .str "regex"), ("regex", .str regex)]

/-- An extraction from JSON. -/
def decode : Json.Decoder Extraction := fun v => do
  let [type, regex] ← Json.fields ["type", "regex"] v | none
  let type ← type.required Json.Decode.string
  let regex ← regex.required Json.Decode.string
  if type = "regex" then some (.pattern regex) else none

end Extraction

namespace LocatorMode

/-- A mode as JSON. -/
def encode (m : LocatorMode) : Json :=
  .obj (("name", .str m.name) :: Json.memberIf "extractValue" (m.extraction.map Extraction.encode))

/-- A mode from JSON. -/
def decode : Json.Decoder LocatorMode := fun v => do
  let [name, extraction] ← Json.fields ["name", "extractValue"] v | none
  return {
    name := ← name.required Json.Decode.string
    extraction := ← extraction.optional Extraction.decode }

end LocatorMode

namespace Schema

/-- The fields of a declaration, in order. -/
def fieldNames : List String :=
  ["name", "type", "default", "displayOptions", "choices", "options", "extractValue", "modes"]

/-- A declaration from JSON, with given parameters inside it. -/
def decodeWith (options : List Schema) : Json.Decoder Schema := fun v => do
  let [name, kind, default, display, choices, _, extraction, modes] ← Json.fields fieldNames v
    | none
  return {
    name := ← name.required Json.Decode.string
    kind := ← kind.required (Json.Decode.choice Kind.names)
    default := ← default.orElse Json.Decode.any .null
    display := ← display.optional DisplayRules.decode
    choices := ← choices.orElse (Json.Decode.list Choice.decode) []
    options := options
    extraction := ← extraction.optional Extraction.decode
    modes := ← modes.orElse (Json.Decode.list LocatorMode.decode) [] }

mutual

/-- A declaration from JSON. -/
def decode : Json → Option Schema
  | .obj o => (decodeInMembers o).bind fun options => decodeWith options (.obj o)
  | .arr vs => (decodeInFields 5 vs).bind fun options => decodeWith options (.arr vs)
  | _ => none

/-- The declarations of an object's member `options`. -/
def decodeInMembers : List (String × Json) → Option (List Schema)
  | [] => some []
  | (k, v) :: rest => if k == "options" then decodeArray v else decodeInMembers rest

/-- The declarations in a field by position. -/
def decodeInFields : Nat → List Json → Option (List Schema)
  | _, [] => some []
  | 0, v :: _ => decodeArray v
  | n + 1, _ :: vs => decodeInFields n vs

/-- Declarations from an array. -/
def decodeArray : Json → Option (List Schema)
  | .arr vs => decodeEach vs
  | _ => none

/-- Declarations from the entries of an array. -/
def decodeEach : List Json → Option (List Schema)
  | [] => some []
  | v :: vs => (decode v).bind fun s => (decodeEach vs).map (s :: ·)

end

/-- The members written before the parameters inside a declaration. -/
def encodeHead (name : String) (kind : Kind) (default : Json) (display : Option DisplayRules)
    (choices : List Choice) : Json.Object :=
  [("name", .str name), ("type", .str kind.name), ("default", default)] ++
    Json.memberIf "displayOptions" (display.map DisplayRules.encode) ++
    Json.memberUnlessEmpty "choices" Choice.encode choices

/-- The members written after the parameters inside a declaration. -/
def encodeTail (extraction : Option Extraction) (modes : List LocatorMode) : Json.Object :=
  Json.memberIf "extractValue" (extraction.map Extraction.encode) ++
    Json.memberUnlessEmpty "modes" LocatorMode.encode modes

mutual

/-- A declaration as JSON. -/
def encode : Schema → Json
  | ⟨name, kind, default, display, choices, options, extraction, modes⟩ =>
    .obj (encodeHead name kind default display choices ++
      (if options.isEmpty then [] else [("options", .arr (encodeEach options))]) ++
      encodeTail extraction modes)

/-- Declarations as the entries of an array. -/
def encodeEach : List Schema → List Json
  | [] => []
  | s :: ss => encode s :: encodeEach ss

end

end Schema

namespace Spec

/-- The greatest version. -/
def maxVersion : Int := 2 ^ (32 : Nat) - 1

/-- The declaration of a node type as JSON. -/
def encode (s : Spec) : Json :=
  .obj [("name", .str s.name), ("displayName", .str s.displayName),
    ("version", Json.ofNat s.version), ("properties", .arr (Schema.encodeEach s.properties))]

/-- The declaration of a node type from JSON. -/
def decode : Json.Decoder Spec := fun v => do
  let [name, displayName, version, properties] ←
    Json.fields ["name", "displayName", "version", "properties"] v | none
  return {
    name := ← name.required Json.Decode.string
    displayName := ← displayName.required Json.Decode.string
    version := (← version.orElse (Json.Decode.intIn 0 maxVersion) 1).toNat
    properties := ← properties.orElse Schema.decodeArray [] }

end Spec

end Conveyor.Parameter
