/-
The exact value of a floating point number.

A finite float is a sign, a natural significand and a power of two. Every exact question this
project asks about a float (is it a whole number, which decimal digits describe it, what is it
rounded to two places) is answered on that triple with integer arithmetic, so nothing here rounds.
-/

set_option autoImplicit false

namespace Conveyor

-- A power of numbers is the same term whether or not monoids, which have powers of their own, are
-- in scope.
attribute [scoped instance (1100)] instPowNat

end Conveyor

namespace Conveyor.Decimal

/-- A finite float: its value is `significand * 2 ^ exponent`, negated when `negative`. -/
structure Binary where
  negative : Bool
  significand : Nat
  exponent : Int
  deriving Repr, DecidableEq

namespace Binary

/-! ## Reading the bits -/

/-- The triple whose sign bit, exponent field and fraction field are given. -/
def ofFields (negative : Bool) (field fraction : Nat) : Option Binary :=
  if field = 2047 then none
  else if field = 0 then some ⟨negative, fraction, -1074⟩
  else some ⟨negative, fraction + 2 ^ (52 : Nat), (field : Int) - 1075⟩

/-- The exact value of a float; infinities and NaN have none. -/
def ofFloat? (x : Float) : Option Binary :=
  let bits := x.toBits.toNat
  ofFields (bits / 2 ^ (63 : Nat) == 1) (bits / 2 ^ (52 : Nat) % 2048) (bits % 2 ^ (52 : Nat))

/-! ## Whole parts -/

/-- Whole part of the magnitude. -/
def wholePart (b : Binary) : Nat :=
  if 0 ≤ b.exponent then b.significand * 2 ^ b.exponent.toNat
  else b.significand / 2 ^ (-b.exponent).toNat

/-- The value has no fractional part. -/
def isWhole (b : Binary) : Bool :=
  if 0 ≤ b.exponent then true else b.significand % 2 ^ (-b.exponent).toNat == 0

/-- The value cut toward zero. -/
def trunc (b : Binary) : Int :=
  if b.negative then -(b.wholePart : Int) else b.wholePart

/-- The greatest integer that is not above the value. -/
def floor (b : Binary) : Int :=
  if b.negative && !b.isWhole then b.trunc - 1 else b.trunc

/-- The least integer that is not below the value. -/
def ceil (b : Binary) : Int :=
  if !b.negative && !b.isWhole then b.trunc + 1 else b.trunc

/-- The integer nearest to the value, a half going away from zero. -/
def round (b : Binary) : Int :=
  if 0 ≤ b.exponent then b.trunc
  else
    let d := 2 ^ (-b.exponent).toNat
    let n := (2 * b.significand + d) / (2 * d)
    if b.negative then -(n : Int) else n

/-- The integer a value is, if it is one. -/
def whole? (b : Binary) : Option Int := if b.isWhole then some b.trunc else none

end Binary

/-- The integer a float is exactly, if it is one. -/
def wholeOfFloat? (x : Float) : Option Int := (Binary.ofFloat? x).bind Binary.whole?

end Conveyor.Decimal
