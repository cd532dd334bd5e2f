/-
Resolving parameters.

A node asks for a parameter by its path. The path must start with a declared parameter that is
shown; what is hidden or not declared is never read, whatever is configured there. A configured
value is taken before the declared default, and that before the fallback of the caller. Then the
templates in the value are evaluated, and a value is extracted if the caller asks for it and the
path ends at a declaration.
-/
import Conveyor.Parameter.Display
import Conveyor.Parameter.Extract
import Conveyor.Parameter.Path
import Conveyor.Run.View

set_option autoImplicit false

namespace Conveyor.Parameter

/-- What a caller wants of a value (`GetParameterOptions`). -/
inductive Access where
  | resolved
  /-- Templates are left as they are written. -/
  | raw
  | extracted
  deriving DecidableEq

/-- The declarations of node types, and the sandbox that evaluates templates
(`ParameterResolver`). -/
structure Resolver where
  spec? : String → Option Spec
  box : Script.Sandbox

/-- The deepest declaration on a path and what of the path lies below it. Positions stay at the
declaration they are in; a key that is not declared ends the walk. -/
def descend (s : Schema) : Path → Schema × Path
  | [] => (s, [])
  | .index _ :: rest => descend s rest
  | .key k :: rest =>
    match s.child? k with
    | some c => descend c rest
    | none => (s, .key k :: rest)

/-- The declaration that a path starts with, followed as deep as it goes. -/
def locate (visible : List Schema) : Path → Option (Schema × Path)
  | .key k :: rest => (visible.find? (·.name == k)).map (descend · rest)
  | _ => none

/-- The value a path finds, with the error of an unreadable selector. -/
def find (root : Json) (segments : Path) (path : String) : Except Error (Option Json) :=
  match Path.lookup root segments with
  | some v => .ok v
  | none => .error (.unreadableSelector path)

/-- The default of a caller, or the error of a parameter that was not found. -/
def orNotFound (fallback : Option Json) (path : String) : Except Error Json :=
  match fallback with
  | some v => .ok v
  | none => .error (.notFound path)

/-- The value as it is written: the configured one, the declared default, or the fallback. -/
def written (parameters : Json.Object) (s : Schema) (segments below : Path) (path : String)
    (fallback : Option Json) : Except Error Json :=
  match find (.obj parameters) segments path with
  | .error e => .error e
  | .ok (some v) => .ok v
  | .ok none =>
    match find s.default below path with
    | .error e => .error e
    | .ok (some .null) | .ok none => orNotFound fallback path
    | .ok (some v) => .ok v

namespace Resolver

/-- The value of a parameter for an item (`ParameterResolver::get_parameter`). -/
def get (r : Resolver) (view : View) (path : String) (fallback : Option Json) (itemIndex : Nat)
    (access : Access) : Except Error Json :=
  let node := view.node
  match r.spec? node.type with
  | none => .error (.unknownNodeType node.type)
  | some spec =>
    match Path.parse? path with
    | none => .error (.invalidPath path)
    | some segments =>
      let siblings : Siblings := ⟨spec.properties, node.parameters, node.typeVersion⟩
      match locate siblings.visible segments with
      | none => orNotFound fallback path
      | some (s, below) =>
        match written node.parameters s segments below path fallback with
        | .error e => .error e
        | .ok raw =>
          if access = .raw then .ok raw
          else
            match Template.resolve (view.runner r.box itemIndex) raw with
            | .error e => .error (.expression e)
            | .ok v =>
              if access = .extracted && below.isEmpty then
                s.extract path v itemIndex node.continuesOnFail
              else .ok v

/-! ## Typed access -/

/-- A value read by a decoder; one that it does not take has the wrong shape
(`get_parameter_as`). -/
def getAs {α : Type} (r : Resolver) (view : View) (decode : Json.Decoder α) (path : String)
    (fallback : Option Json) (itemIndex : Nat) : Except Error α :=
  match r.get view path fallback itemIndex .resolved with
  | .error e => .error e
  | .ok v =>
    match decode v with
    | some a => .ok a
    | none => .error (.conversion path v.typeName)

/-- A value of a type that is told by name. -/
def getTyped {α : Type} (r : Resolver) (view : View) (decode : Json.Decoder α) (expected : String)
    (path : String) (fallback : Option Json) (itemIndex : Nat) : Except Error α :=
  match r.get view path fallback itemIndex .resolved with
  | .error e => .error e
  | .ok v =>
    match decode v with
    | some a => .ok a
    | none => .error (.typeMismatch path expected v.typeName)

/-- A string parameter (`get_string`). -/
def getString (r : Resolver) (view : View) (path : String) (fallback : Option String)
    (itemIndex : Nat) : Except Error String :=
  r.getTyped view Json.Decode.string "string" path (fallback.map .str) itemIndex

/-- A boolean parameter (`get_bool`). -/
def getBool (r : Resolver) (view : View) (path : String) (fallback : Option Bool)
    (itemIndex : Nat) : Except Error Bool :=
  r.getTyped view Json.Decode.bool "boolean" path (fallback.map .bool) itemIndex

/-- A number parameter (`get_number`). -/
def getNumber (r : Resolver) (view : View) (path : String) (fallback : Option Float)
    (itemIndex : Nat) : Except Error Float :=
  r.getTyped view Json.Decode.float "number" path (fallback.map fun x => .num (.float x)) itemIndex

end Resolver

end Conveyor.Parameter
