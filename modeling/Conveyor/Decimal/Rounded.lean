/-
Floats rounded to a number of places or of significant digits.

The float's exact value is rounded once, to the nearest decimal with the wanted digits, and a value
exactly half way goes to the neighbour whose last digit is even. The three texts below are the
fixed, scientific and general forms of formatted output; signs and padding are left to the caller.
-/
import Conveyor.Decimal.Layout

set_option autoImplicit false

namespace Conveyor.Decimal

/-! ## Rounding quotients -/

/-- The natural number nearest to `num / den`, a half going to the even neighbour. -/
def roundHalfEven (num den : Nat) : Nat :=
  let q := num / den
  match compare (2 * (num % den)) den with
  | .lt => q
  | .gt => q + 1
  | .eq => if q % 2 == 0 then q else q + 1

/-- The magnitude of a finite float as a fraction. -/
def Binary.fraction (b : Binary) : Nat × Nat :=
  (b.significand * 2 ^ b.exponent.toNat, 2 ^ (-b.exponent).toNat)

/-- Magnitude times `10 ^ places`, rounded. -/
def Binary.scaledTo (b : Binary) (places : Nat) : Nat :=
  let (num, den) := b.fraction
  roundHalfEven (num * 10 ^ places) den

/-- The magnitude rounded to `n` significant digits, trailing zeros kept; zero has exponent zero. -/
def Binary.significant (b : Binary) (n : Nat) : Digits :=
  if b.significand = 0 then ⟨List.replicate n 0, 1⟩
  else
    let (num, den) := b.fraction
    let k := decimalExponent num den
    let s := k - n
    let a := if 0 ≤ s then roundHalfEven num (den * 10 ^ s.toNat)
             else roundHalfEven (num * 10 ^ (-s).toNat) den
    if a = 10 ^ n then ⟨1 :: List.replicate (n - 1) 0, k + 1⟩ else ⟨natDigits a, k⟩

/-! ## The three forms -/

/-- Fixed form with `places` digits after the point; `keepPoint` writes the point even if none. -/
def fixedForm (b : Binary) (places : Nat) (keepPoint : Bool) : String :=
  let ds := padZeros (places + 1) (natText (b.scaledTo places))
  let whole := (ds.take (ds.length - places)).toString
  let fraction := (ds.drop (ds.length - places)).toString
  if places = 0 then whole ++ (if keepPoint then "." else "") else whole ++ "." ++ fraction

/-- Digits in scientific form with the given fraction digits. -/
def scientificOf (first : List Nat) (fraction : List Nat) (e : Int) (keepPoint : Bool) : String :=
  let point := if fraction.isEmpty && !keepPoint then "" else "."
  digitText first ++ point ++ digitText fraction ++ (if e < 0 then "e-" else "e+") ++
    padZeros 2 (natText e.natAbs)

/-- Scientific form with `places` digits after the point. -/
def scientificForm (b : Binary) (places : Nat) (keepPoint : Bool) : String :=
  let d := b.significant (places + 1)
  scientificOf (d.digits.take 1) (d.digits.drop 1) (d.point - 1) keepPoint

/-- General form with `precision` significant digits: positional for exponents from `-4` up to the
precision, scientific otherwise; zeros at the end of the fraction are dropped unless `keepZeros`. -/
def generalForm (b : Binary) (precision : Nat) (keepZeros : Bool) : String :=
  let p := if precision = 0 then 1 else precision
  let d := b.significant p
  let e := d.point - 1
  if -4 ≤ e && e < p then
    if keepZeros then fixedForm b ((p : Int) - 1 - e).toNat true
    else
      let kept := dropTrailingZeros d.digits
      if kept.isEmpty then "0"
      else (Digits.mk kept d.point).positional
  else
    let fraction := if keepZeros then d.digits.drop 1 else dropTrailingZeros (d.digits.drop 1)
    scientificOf (d.digits.take 1) fraction e keepZeros

end Conveyor.Decimal
