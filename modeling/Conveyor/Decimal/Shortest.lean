/-
The fewest decimal digits that read back as a given float.

The reals that round to a float form an interval around it. For one digit, two digits, and so on,
the two neighbours of the value on that decimal grid are tried; the first grid with a point in the
interval wins, and of two hits the nearer, an exact tie going to the even last digit. Everything is
done on natural numbers, so the choice is exact.
-/
import Conveyor.Decimal.Binary

set_option autoImplicit false

namespace Conveyor.Decimal

/-- Decimal digits, most significant first, and the position of the point: the value is
`0.d₁d₂d₃… * 10 ^ point`. -/
structure Digits where
  digits : List Nat
  point : Int
  deriving Repr, DecidableEq

/-! ## The grid of `n` digits -/

/-- `a * 10 ^ s` compared with `b / d`, for naturals `a`, `b`, `d` and an integer `s`. -/
def compareScaled (a : Nat) (s : Int) (b d : Nat) : Ordering :=
  if 0 ≤ s then compare (a * 10 ^ s.toNat * d) b else compare (a * d) (b * 10 ^ (-s).toNat)

/-- The least `k` among `start`, `start + 1`, … for which `num / den < 10 ^ k`. -/
def decimalExponentFrom (num den : Nat) : Nat → Int → Int
  | 0, k => k
  | fuel + 1, k =>
    if compareScaled 1 k num den == .gt then k else decimalExponentFrom num den fuel (k + 1)

/-- The number of decimal places before the point of `num / den`: the least `k` with
`num / den < 10 ^ k`. -/
def decimalExponent (num den : Nat) : Int :=
  let bits : Int := (num.log2 : Int) - (den.log2 : Int)
  decimalExponentFrom num den 5 ((bits * 30103).fdiv 100000 - 1)

/-- Whole part of `num / (den * 10 ^ s)`. -/
def floorScaled (num den : Nat) (s : Int) : Nat :=
  if 0 ≤ s then num / (den * 10 ^ s.toNat) else num * 10 ^ (-s).toNat / den

/-- Decimal digits of a natural number, most significant first; none for zero. -/
def natDigits (n : Nat) : List Nat := go n []
where
  go : Nat → List Nat → List Nat
    | 0, acc => acc
    | n + 1, acc => go ((n + 1) / 10) ((n + 1) % 10 :: acc)
  termination_by n => n
  decreasing_by omega

/-- Digits without the zeros at the end. -/
def dropTrailingZeros (ds : List Nat) : List Nat := (ds.reverse.dropWhile (· == 0)).reverse

/-! ## The interval of a float -/

/-- A positive float in quarter units of its last place: the value and the two ends of the interval
of reals that round to it, all over one denominator. -/
structure Interval where
  low : Nat
  value : Nat
  high : Nat
  den : Nat
  /-- The ends themselves round to the float. -/
  closed : Bool

/-- The interval of a nonzero finite float. -/
def Interval.ofBinary (b : Binary) : Interval :=
  let m := b.significand
  let q := b.exponent - 2
  let scale := 2 ^ q.toNat
  let below := if m == 2 ^ (52 : Nat) && b.exponent > -1074 then 1 else 2
  { low := (4 * m - below) * scale
    value := 4 * m * scale
    high := (4 * m + 2) * scale
    den := 2 ^ (-q).toNat
    closed := m % 2 == 0 }

/-- Whether `a * 10 ^ s` rounds to the float. -/
def Interval.contains (i : Interval) (a : Nat) (s : Int) : Bool :=
  match compareScaled a s i.low i.den, compareScaled a s i.high i.den with
  | .gt, .lt => true
  | .eq, _ => i.closed
  | _, .eq => i.closed
  | _, _ => false

/-- Of the neighbours `a` and `a + 1` of the value on the grid of step `10 ^ s`, the nearer. -/
def nearerNeighbour (i : Interval) (a : Nat) (s : Int) : Nat :=
  match compareScaled (2 * a + 1) s (2 * i.value) i.den with
  | .gt => a
  | .lt => a + 1
  | .eq => if a % 2 == 0 then a else a + 1

/-- The point chosen on the grid of step `10 ^ s`, if the interval holds one. -/
def pickOnGrid (i : Interval) (s : Int) : Option Nat :=
  let a := floorScaled i.value i.den s
  match i.contains a s && a != 0, i.contains (a + 1) s with
  | true, true => some (nearerNeighbour i a s)
  | true, false => some a
  | false, true => some (a + 1)
  | false, false => none

/-- Tries the grids of `n`, `n + 1`, … digits. -/
def shortestFrom (i : Interval) (k : Int) : Nat → Nat → Digits
  | 0, n => ⟨natDigits (floorScaled i.value i.den (k - n)), k⟩
  | fuel + 1, n =>
    match pickOnGrid i (k - n) with
    | some a =>
      let ds := natDigits a
      ⟨dropTrailingZeros ds, k - n + ds.length⟩
    | none => shortestFrom i k fuel (n + 1)

/-- The shortest digits of a nonzero finite float; the sign is left out. -/
def shortest (b : Binary) : Digits :=
  let i := Interval.ofBinary b
  shortestFrom i (decimalExponent i.value i.den) 17 1

end Conveyor.Decimal
