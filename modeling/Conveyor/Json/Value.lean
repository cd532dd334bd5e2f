/-
JSON values.

Numbers keep the difference between integers and floats, and objects keep the order in which their
members were written. An object holds each name once: a repeated name keeps its first position and
its last value.
-/
import Conveyor.Decimal.Read
import Conveyor.Named

set_option autoImplicit false

namespace Conveyor

/-- A JSON number: an integer between `-2^63` and `2^64 - 1`, or a finite float. -/
inductive Json.Number where
  | int (i : Int)
  | float (x : Float)

/-- A JSON value. -/
inductive Json where
  | null
  | bool (b : Bool)
  | num (n : Json.Number)
  | str (s : String)
  | arr (items : List Json)
  | obj (members : List (String × Json))
  deriving Inhabited

namespace Json

/-- The members of an object, in order. -/
abbrev Object := Named Json

/-! ## Numbers -/

/-- The least integer a JSON number holds. -/
def minInt : Int := -2 ^ (63 : Nat)

/-- The greatest signed integer of 64 bits. -/
def maxSigned : Int := 2 ^ (63 : Nat) - 1

/-- The greatest integer a JSON number holds. -/
def maxInt : Int := 2 ^ (64 : Nat) - 1

/-- A number as the nearest float. -/
def Number.toFloat : Number → Float
  | .int i => Float.ofInt i
  | .float x => x

/-- A number as a float value: whole numbers below nine quadrillion become integers, what is not
finite becomes null (`number_from_f64`). -/
def ofFloat (x : Float) : Json :=
  match Decimal.Binary.ofFloat? x with
  | none => .null
  | some b =>
    match b.whole? with
    | some i => if i.natAbs < 9 * 10 ^ (15 : Nat) then .num (.int i) else .num (.float x)
    | none => .num (.float x)

/-- An integer value. -/
def ofInt (i : Int) : Json := .num (.int i)

/-- A natural number value. -/
def ofNat (n : Nat) : Json := .num (.int n)

/-! ## Reading values -/

/-- The name of the kind of a value (`type_name`). -/
def typeName : Json → String
  | null => "null"
  | bool _ => "boolean"
  | num _ => "number"
  | str _ => "string"
  | arr _ => "array"
  | obj _ => "object"

/-- Null, the empty string, the empty array and the empty object (`is_empty`). -/
def isEmpty : Json → Bool
  | null => true
  | str s => s.isEmpty
  | arr xs => xs.isEmpty
  | obj o => o.isEmpty
  | bool _ | num _ => false

/-- Null. -/
def isNull : Json → Bool
  | null => true
  | _ => false

/-- The string of a string value. -/
def asString? : Json → Option String
  | str s => some s
  | _ => none

/-- The members of an object value. -/
def asObject? : Json → Option Object
  | obj o => some o
  | _ => none

/-- The entries of an array value. -/
def asArray? : Json → Option (List Json)
  | arr xs => some xs
  | _ => none

/-- The member of a name, if the value is an object that has it. -/
def member? (v : Json) (name : String) : Option Json := v.asObject?.bind (Named.get? · name)

end Json

end Conveyor
