/-
Reading typed records out of JSON values.

A record is an object whose members are its fields, unknown members being ignored, or an array that
lists the fields in the order of their declaration. A field may be required, may have a default, or
may be optional; an optional field reads null as absent. A choice among names is a string, or an
object whose only member has the name and holds null.
-/
import Conveyor.Json.Value

set_option autoImplicit false

namespace Conveyor.Json

/-- A reader of typed values; `none` means that the value does not have the shape. -/
abbrev Decoder (α : Type) := Json → Option α

/-! ## Scalars and containers -/

namespace Decode

/-- Any value. -/
def any : Decoder Json := some

/-- A boolean. -/
def bool : Decoder Bool
  | .bool b => some b
  | _ => none

/-- A string. -/
def string : Decoder String
  | .str s => some s
  | _ => none

/-- An integer in a range; a float is not one, even a whole one. -/
def intIn (lo hi : Int) : Decoder Int
  | .num (.int i) => if lo ≤ i && i ≤ hi then some i else none
  | _ => none

/-- A natural number of at most 64 bits. -/
def nat (v : Json) : Option Nat := (intIn 0 maxInt v).map Int.toNat

/-- Any number, as a float. -/
def float : Decoder Float
  | .num n => some n.toFloat
  | _ => none

/-- The members of an object. -/
def object : Decoder Object
  | .obj o => some o
  | _ => none

/-- The entries of an array, read one by one. -/
def items {α : Type} (d : Decoder α) : List Json → Option (List α)
  | [] => some []
  | v :: vs =>
    match d v, items d vs with
    | some x, some xs => some (x :: xs)
    | _, _ => none

/-- An array. -/
def list {α : Type} (d : Decoder α) : Decoder (List α)
  | .arr vs => items d vs
  | _ => none

/-- The members of an object, read one by one. -/
def members {α : Type} (d : Decoder α) : List (String × Json) → Option (List (String × α))
  | [] => some []
  | (k, v) :: rest =>
    match d v, members d rest with
    | some x, some xs => some ((k, x) :: xs)
    | _, _ => none

/-- An object whose members all have one shape. -/
def dict {α : Type} (d : Decoder α) : Decoder (List (String × α))
  | .obj o => members d o
  | _ => none

/-- Null, or a value. -/
def orNull {α : Type} (d : Decoder α) : Decoder (Option α)
  | .null => some none
  | v => (d v).map some

/-- One of a list of names. -/
def choice {α : Type} (names : List (String × α)) : Decoder α
  | .str s => names.lookup s
  | .obj [(s, .null)] => names.lookup s
  | _ => none

end Decode

/-! ## Fields of records -/

/-- A field of a record as it was given. -/
inductive Field where
  | given (v : Json)
  /-- The object has no such member. -/
  | missing
  /-- The array ends before the field. -/
  | cut

namespace Field

/-- A field that must be given. -/
def required {α : Type} (d : Decoder α) : Field → Option α
  | given v => d v
  | missing | cut => none

/-- A field with a default. -/
def orElse {α : Type} (d : Decoder α) (fallback : α) : Field → Option α
  | given v => d v
  | missing | cut => some fallback

/-- An optional field. -/
def optional {α : Type} (d : Decoder α) : Field → Option (Option α)
  | given v => Decode.orNull d v
  | missing | cut => some none

end Field

/-- Fields given by position. -/
def positional : List String → List Json → Option (List Field)
  | [], [] => some []
  | [], _ :: _ => none
  | _ :: names, [] => (positional names []).map (.cut :: ·)
  | _ :: names, v :: vs => (positional names vs).map (.given v :: ·)

/-- The field of a name in an object. -/
def namedField (o : Object) (name : String) : Field :=
  match o.get? name with
  | some v => .given v
  | none => .missing

/-- The named fields of a record, in the order of the names. -/
def fields (names : List String) : Json → Option (List Field)
  | obj o => some (names.map (namedField o))
  | arr vs => positional names vs
  | _ => none

/-! ## Writing records -/

/-- A member written only if there is a value. -/
def memberIf (name : String) : Option Json → List (String × Json)
  | some v => [(name, v)]
  | none => []

/-- A member written only if the list is not empty. -/
def memberUnlessEmpty {α : Type} (name : String) (encode : α → Json) (xs : List α) :
    List (String × Json) :=
  if xs.isEmpty then [] else [(name, arr (xs.map encode))]

end Conveyor.Json
