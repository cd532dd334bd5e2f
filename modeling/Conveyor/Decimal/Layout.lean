/-
Writing decimal digits as text.

One layout is positional and never uses an exponent. The other switches to scientific notation
outside a range of exponents; where the range ends, and how the exponent is written, is data
(`ScientificStyle`), so that each format states its own choices in one value.
-/
import Conveyor.Decimal.Shortest

set_option autoImplicit false

namespace Conveyor.Decimal

/-! ## Pieces -/

/-- The character of a decimal digit. -/
def digitChar (d : Nat) : Char := Char.ofNat (48 + d % 10)

/-- Digits as text. -/
def digitText (ds : List Nat) : String := String.ofList (ds.map digitChar)

/-- `n` zeros. -/
def zeros (n : Nat) : String := String.ofList (List.replicate n '0')

/-- Decimal text of a natural number. -/
def natText (n : Nat) : String := if n = 0 then "0" else digitText (natDigits n)

/-- Decimal text of an integer. -/
def intText (i : Int) : String := if i < 0 then "-" ++ natText i.natAbs else natText i.natAbs

/-- Text padded on the left with zeros to a width. -/
def padZeros (width : Nat) (s : String) : String := zeros (width - s.length) ++ s

/-! ## Positional text -/

/-- Positional text of digits, with no point when nothing follows it. -/
def Digits.positional (d : Digits) : String :=
  if d.point ≤ 0 then "0." ++ zeros (-d.point).toNat ++ digitText d.digits
  else if d.digits.length ≤ d.point.toNat then
    digitText d.digits ++ zeros (d.point.toNat - d.digits.length)
  else digitText (d.digits.take d.point.toNat) ++ "." ++ digitText (d.digits.drop d.point.toNat)

/-- Text of a float that is not finite. -/
def specialText (x : Float) : String :=
  if x.isNaN then "NaN" else if x < 0 then "-inf" else "inf"

/-- A float with the fewest digits that read back, positionally whatever its size. -/
def positionalText (x : Float) : String :=
  match Binary.ofFloat? x with
  | none => specialText x
  | some b =>
    let sign := if b.negative then "-" else ""
    if b.significand = 0 then sign ++ "0" else sign ++ (shortest b).positional

/-! ## Text with an exponent outside a range -/

/-- How a format writes floats: which exponents (of the first digit) stay positional, and how many
digits an exponent has at least. -/
structure ScientificStyle where
  lowest : Int
  highest : Int
  exponentDigits : Nat

/-- Scientific text: one digit, a point if more follow, `e`, a sign and the exponent. -/
def Digits.scientific (d : Digits) (exponentDigits : Nat) : String :=
  let e := d.point - 1
  let mark := if e < 0 then "e-" else "e+"
  let fraction := if d.digits.length ≤ 1 then "" else "." ++ digitText (d.digits.drop 1)
  digitText (d.digits.take 1) ++ fraction ++ mark ++ padZeros exponentDigits (natText e.natAbs)

/-- Digits in a style; positional text always shows a fraction, if only `.0`. -/
def Digits.styled (d : Digits) (style : ScientificStyle) : String :=
  if style.lowest ≤ d.point - 1 && d.point - 1 ≤ style.highest then
    if d.point ≤ 0 || d.point.toNat < d.digits.length then d.positional else d.positional ++ ".0"
  else d.scientific style.exponentDigits

/-- A finite float in a style. -/
def styledText (style : ScientificStyle) (x : Float) : String :=
  match Binary.ofFloat? x with
  | none => specialText x
  | some b =>
    let sign := if b.negative then "-" else ""
    if b.significand = 0 then sign ++ "0.0" else sign ++ (shortest b).styled style

end Conveyor.Decimal
