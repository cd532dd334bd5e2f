/-
Functions on numbers.
-/
import Conveyor.Lua.Native

set_option autoImplicit false

namespace Conveyor.Lua.Library

/-! ## Rounding -/

/-- A number rounded to a whole one, an integer if it fits. -/
def rounded (args : List Value) (whole : Decimal.Binary → Int) (round : Float → Float) :
    Except Fault (List Value) :=
  match argument args 1 with
  | .int i => .ok [.int i]
  | _ => do
    let x ← checkFloat args 1
    match Decimal.Binary.ofFloat? x with
    | some b => return [ofWhole (whole b) (round x)]
    | none => return [.float x]

/-- The whole part and the rest of a number, as floats. -/
def parts (args : List Value) : Except Fault (List Value) := do
  match argument args 1 with
  | .int i => return [.float i.toFloat, .float 0.0]
  | _ =>
    let x ← checkFloat args 1
    let whole := if x < 0 then x.ceil else x.floor
    return [.float whole, .float (if x.isInf then 0.0 else x - whole)]

/-- The remainder that has the sign of the dividend. -/
def dividendRemainder (args : List Value) : Except Fault (List Value) := do
  match argument args 1, argument args 2 with
  | .int a, .int b =>
    if b == 0 then .error (.argument 2 "zero")
    else return [.int (Int64.ofInt (a.toInt.tmod b.toInt))]
  | _, _ =>
    let x ← checkFloat args 1
    let y ← checkFloat args 2
    return [.float (remainder x y)]

/-! ## Magnitude and comparison -/

/-- The magnitude of a number. -/
def magnitude (args : List Value) : Except Fault (List Value) := do
  match argument args 1 with
  | .int i => return [.int (if i < 0 then -i else i)]
  | _ => return [.float (← checkFloat args 1).abs]

/-- The argument that no other argument is preferred to; `prefers a b` compares two values. -/
def extreme (prefers : Value → Value → Except OperandError Bool) (args : List Value) :
    Except Fault (List Value) := do
  let start ← checkAny args 1
  let best ← (args.drop 1).foldlM (fun best v =>
    match prefers v best with
    | .ok b => .ok (if b then v else best)
    | .error e => .error (Fault.plain (e.message v best (none, none)))) start
  return [best]

/-- Less than, bits taken as unsigned numbers. -/
def unsignedLess (args : List Value) : Except Fault (List Value) := do
  let a ← checkInt args 1
  let b ← checkInt args 2
  return [.bool (a.toUInt64 < b.toUInt64)]

/-! ## Kinds of numbers -/

/-- The integer a value is or spells. -/
def toInteger (args : List Value) : Except Fault (List Value) := do
  let v ← checkAny args 1
  match v.number?.bind Value.int? with
  | some i => return [.int i]
  | none => return [.nil]

/-- Whether a number is an integer or a float. -/
def numberKind (args : List Value) : Except Fault (List Value) := do
  match ← checkAny args 1 with
  | .int _ => return [.text "integer"]
  | .float _ => return [.text "float"]
  | _ => return [.nil]

/-! ## Functions on floats -/

/-- A function of a float. -/
def ofFloat (f : Float → Float) (args : List Value) : Except Fault (List Value) := do
  return [.float (f (← checkFloat args 1))]

/-- The logarithm to a base, natural if none is given. -/
def logarithm (args : List Value) : Except Fault (List Value) := do
  let x ← checkFloat args 1
  if isAbsent args 2 then return [.float x.log]
  else
    let base ← checkFloat args 2
    if base == 2.0 then return [.float x.log2]
    else if base == 10.0 then return [.float x.log10]
    else return [.float (x.log / base.log)]

end Conveyor.Lua.Library
