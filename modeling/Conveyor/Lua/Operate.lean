/-
The operators on values.

Integers wrap at 64 bits and stay integers under `+ - * // %`; any float among the operands makes
the result a float, and `/` and `^` always do. Division and remainder round towards minus infinity.
A text that spells a number stands for it in arithmetic, but not where bits are concerned.
Comparisons between integers and floats are exact.
-/
import Conveyor.Lua.Numeral
import Conveyor.Lua.Table
import Conveyor.Lua.Tree

set_option autoImplicit false

namespace Conveyor.Lua

/-- Why an operator refuses its operands. Where one operand is to blame, `second` says which. -/
inductive OperandError where
  | arithmetic (second : Bool)
  | textArithmetic (event : String) (a b : Value)
  | bitwise (second : Bool)
  | noInteger (second : Bool)
  | concat (second : Bool)
  | length
  | compare (a b : Value)
  | divideByZero
  | remainderByZero

/-! ## Conversions -/

/-- A number, or the number a text spells. -/
def Value.number? : Value → Option Value
  | .int i => some (.int i)
  | .float x => some (.float x)
  | .str s => Numeral.ofBytes? s
  | _ => none

/-- A number as a float; other values have none. -/
def Value.float? : Value → Option Float
  | .int i => some i.toFloat
  | .float x => some x
  | _ => none

/-- The integer a number is exactly. -/
def Value.int? : Value → Option Int64
  | .int i => some i
  | .float x => intOfFloat? x
  | _ => none

/-- Whether a value is a number. -/
def Value.isNumber : Value → Bool
  | .int _ | .float _ => true
  | _ => false

/-- Whether a value is a text. -/
def Value.isText : Value → Bool
  | .str _ => true
  | _ => false

/-- The bytes of a text or number. -/
def Value.bytes? : Value → Option ByteArray
  | .str s => some s
  | v => (Numeral.text? v).map String.toUTF8

/-! ## Numbers -/

/-- The remainder with the sign of the dividend. -/
def remainder (x y : Float) : Float :=
  match Decimal.Binary.ofFloat? x, Decimal.Binary.ofFloat? y with
  | some a, some b =>
    if b.significand = 0 then Decimal.notANumber
    else
      let e := min a.exponent b.exponent
      let m :=
        (a.significand * 2 ^ (a.exponent - e).toNat) % (b.significand * 2 ^ (b.exponent - e).toNat)
      Decimal.withSign a.negative (Numeral.scaledByTwo m e)
  | some _, none => if y.isNaN then y else x
  | none, _ => Decimal.notANumber

/-- The remainder with the sign of the divisor. -/
def floorMod (x y : Float) : Float :=
  let m := remainder x y
  if m > 0 then (if y < 0 then m + y else m)
  else if m < 0 && y > 0 then m + y else m

/-- A float that is whole as an integer if it fits, the float itself otherwise. -/
def ofWhole (i : Int) (x : Float) : Value :=
  if -2 ^ (63 : Nat) ≤ i && i < 2 ^ (63 : Nat) then .int (Int64.ofInt i) else .float x

/-- The power of a float. -/
def power (x y : Float) : Float := if y == 2.0 then x * x else Float.pow x y

/-- Shifts to the left, zeros coming in; a negative distance shifts to the right. -/
def shiftLeft (a n : Int64) : Int64 :=
  let d := n.toInt
  if d ≤ -64 || 64 ≤ d then 0
  else if 0 ≤ d then (a.toUInt64 <<< (UInt64.ofNat d.toNat)).toInt64
  else (a.toUInt64 >>> (UInt64.ofNat (-d).toNat)).toInt64

/-- The event of an operator, as messages about texts name it. -/
def eventName : BinaryOp → String
  | .add => "add"
  | .sub => "sub"
  | .mul => "mul"
  | .mod => "mod"
  | .pow => "pow"
  | .div => "div"
  | .idiv => "idiv"
  | _ => ""

/-- Arithmetic on two integers, where it has an integer result. -/
def intArithmetic (op : BinaryOp) (a b : Int64) : Except OperandError Value :=
  match op with
  | .add => .ok (.int (a + b))
  | .sub => .ok (.int (a - b))
  | .mul => .ok (.int (a * b))
  | .idiv =>
    if b == 0 then .error .divideByZero else .ok (.int (Int64.ofInt (a.toInt.fdiv b.toInt)))
  | .mod =>
    if b == 0 then .error .remainderByZero else .ok (.int (Int64.ofInt (a.toInt.fmod b.toInt)))
  | .pow => .ok (.float (power a.toFloat b.toFloat))
  | _ => .ok (.float (a.toFloat / b.toFloat))

/-- Arithmetic on two floats. -/
def floatArithmetic (op : BinaryOp) (x y : Float) : Value :=
  .float <|
    match op with
    | .add => x + y
    | .sub => x - y
    | .mul => x * y
    | .idiv => (x / y).floor
    | .mod => floorMod x y
    | .pow => power x y
    | _ => x / y

/-- Arithmetic on two numbers. -/
def numberArithmetic (op : BinaryOp) (a b : Value) : Except OperandError Value :=
  match a, b with
  | .int i, .int j => intArithmetic op i j
  | a, b =>
    match a.float?, b.float? with
    | some x, some y => .ok (floatArithmetic op x y)
    | some _, none => .error (.arithmetic true)
    | none, _ => .error (.arithmetic false)

/-- Arithmetic on any two values. -/
def arithmetic (op : BinaryOp) (a b : Value) : Except OperandError Value :=
  if a.isText || b.isText then
    match a.number?, b.number? with
    | some a, some b => numberArithmetic op a b
    | _, _ => .error (.textArithmetic (eventName op) a b)
  else numberArithmetic op a b

/-- Operations on bits. -/
def bitOperation (op : BinaryOp) (i j : Int64) : Int64 :=
  match op with
  | .band => i &&& j
  | .bor => i ||| j
  | .bxor => i ^^^ j
  | .shl => shiftLeft i j
  | _ => shiftLeft i (-j)

/-- Operations on the bits of any two values; texts are no numbers here. -/
def bitwise (op : BinaryOp) (a b : Value) : Except OperandError Value :=
  if !a.isNumber then .error (.bitwise false)
  else if !b.isNumber then .error (.bitwise true)
  else
    match a.int?, b.int? with
    | some i, some j =>
      if j == Int64.minValue && op == .shr then .ok (.int 0) else .ok (.int (bitOperation op i j))
    | none, _ => .error (.noInteger false)
    | some _, none => .error (.noInteger true)

/-! ## Comparisons -/

/-- An integer is less than a float. -/
def intLtFloat (i : Int64) (x : Float) : Bool :=
  match Decimal.Binary.ofFloat? x with
  | some b => i.toInt < b.ceil
  | none => x > 0

/-- An integer is at most a float. -/
def intLeFloat (i : Int64) (x : Float) : Bool :=
  match Decimal.Binary.ofFloat? x with
  | some b => i.toInt ≤ b.floor
  | none => x > 0

/-- A float is less than an integer. -/
def floatLtInt (x : Float) (i : Int64) : Bool :=
  match Decimal.Binary.ofFloat? x with
  | some b => b.floor < i.toInt
  | none => x < 0

/-- A float is at most an integer. -/
def floatLeInt (x : Float) (i : Int64) : Bool :=
  match Decimal.Binary.ofFloat? x with
  | some b => b.ceil ≤ i.toInt
  | none => x < 0

/-- Less than, on numbers and on texts. -/
def lessThan (a b : Value) : Except OperandError Bool :=
  match a, b with
  | .int i, .int j => .ok (i < j)
  | .float x, .float y => .ok (x < y)
  | .int i, .float y => .ok (intLtFloat i y)
  | .float x, .int j => .ok (floatLtInt x j)
  | .str s, .str t => .ok (compareBytes s t == .lt)
  | a, b => .error (.compare a b)

/-- At most, on numbers and on texts. -/
def atMost (a b : Value) : Except OperandError Bool :=
  match a, b with
  | .int i, .int j => .ok (i ≤ j)
  | .float x, .float y => .ok (x ≤ y)
  | .int i, .float y => .ok (intLeFloat i y)
  | .float x, .int j => .ok (floatLeInt x j)
  | .str s, .str t => .ok (compareBytes s t != .gt)
  | a, b => .error (.compare a b)

/-- Equality: of the same type and value, except that integers equal the floats of their value. -/
def equal (a b : Value) : Bool :=
  match a, b with
  | .nil, .nil => true
  | .null, .null => true
  | .bool a, .bool b => a == b
  | .int i, .int j => i == j
  | .float x, .float y => x == y
  | .int i, .float y => intOfFloat? y == some i
  | .float x, .int j => intOfFloat? x == some j
  | .str s, .str t => s == t
  | .table a, .table b => a == b
  | .function a, .function b => a == b
  | _, _ => false

/-! ## Operators -/

/-- Joins two texts or numbers. -/
def concatenate (a b : Value) : Except OperandError Value :=
  match a.bytes?, b.bytes? with
  | some s, some t => .ok (.str (s ++ t))
  | some _, none => .error (.concat true)
  | none, _ => .error (.concat false)

/-- The value of an operator between two values. -/
def operate (op : BinaryOp) (a b : Value) : Except OperandError Value :=
  match op with
  | .add | .sub | .mul | .mod | .pow | .div | .idiv => arithmetic op a b
  | .band | .bor | .bxor | .shl | .shr => bitwise op a b
  | .concat => concatenate a b
  | .eq => .ok (.bool (equal a b))
  | .ne => .ok (.bool !(equal a b))
  | .lt => (lessThan a b).map .bool
  | .le => (atMost a b).map .bool
  | .gt => (lessThan b a).map .bool
  | .ge => (atMost b a).map .bool

/-- A number with its sign changed. -/
def negate : Value → Except OperandError Value
  | .int i => .ok (.int (-i))
  | .float x => .ok (.float (-x))
  | .str s =>
    match Numeral.ofBytes? s with
    | some (.int i) => .ok (.int (-i))
    | some (.float x) => .ok (.float (-x))
    | _ => .error (.textArithmetic "unm" (.str s) (.str s))
  | _ => .error (.arithmetic false)

/-- All bits of an integer changed. -/
def complement (v : Value) : Except OperandError Value :=
  if !v.isNumber then .error (.bitwise false)
  else
    match v.int? with
    | some i => .ok (.int (~~~i))
    | none => .error (.noInteger false)

namespace OperandError

/-- The text of an operand error about values that come from known places. -/
def message (e : OperandError) (a b : Value) (origins : Option Origin × Option Origin) : String :=
  let blamed (second : Bool) : String :=
    let v := if second then b else a
    let o := if second then origins.2 else origins.1
    v.typeName ++ " value" ++ (o.map Origin.text).getD ""
  match e with
  | arithmetic second => "attempt to perform arithmetic on a " ++ blamed second
  | textArithmetic event a b =>
    "attempt to " ++ event ++ " a '" ++ a.typeName ++ "' with a '" ++ b.typeName ++ "'"
  | bitwise second => "attempt to perform bitwise operation on a " ++ blamed second
  | noInteger second =>
    let o := if second then origins.2 else origins.1
    "number" ++ (o.map Origin.text).getD "" ++ " has no integer representation"
  | concat second => "attempt to concatenate a " ++ blamed second
  | length => "attempt to get length of a " ++ blamed false
  | compare a b =>
    if a.typeName == b.typeName then "attempt to compare two " ++ a.typeName ++ " values"
    else "attempt to compare " ++ a.typeName ++ " with " ++ b.typeName
  | divideByZero => "attempt to divide by zero"
  | remainderByZero => "attempt to perform 'n%0'"

end OperandError

end Conveyor.Lua
