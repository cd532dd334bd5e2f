/-
Reading decimal text as a float.

A numeral is an optional sign, digits with an optional point, and an optional exponent; the words
`inf`, `infinity` and `nan` stand for themselves in any case. The digits are collected exactly and
rounded to the nearest float once, at the end.
-/
import Conveyor.Decimal.Layout

set_option autoImplicit false

namespace Conveyor.Decimal

/-! ## Digits -/

/-- Value of a decimal digit character. -/
def digitValue (c : Char) : Nat := c.toNat - 48

/-- The number a list of digit characters spells, continuing from `acc`. -/
def natOfDigits (acc : Nat) (ds : List Char) : Nat :=
  ds.foldl (fun n c => 10 * n + digitValue c) acc

/-- The digits at the head of a text, and the rest. -/
def spanDigits (cs : List Char) : List Char × List Char := cs.span Char.isDigit

/-- Decimal text of digits only, as a number. -/
def natOfText? (s : String) : Option Nat :=
  let cs := s.toList
  if cs.isEmpty || !cs.all Char.isDigit then none else some (natOfDigits 0 cs)

/-! ## From exact decimals to floats -/

/-- Positive infinity. -/
def infinity : Float := 1.0 / 0.0

/-- Not a number. -/
def notANumber : Float := 0.0 / 0.0

/-- The float nearest to `significand * 10 ^ exponent`. Far outside the range of floats the answer
is infinity or zero without computing the power. -/
def nearestFloat (significand : Nat) (exponent : Int) : Float :=
  if significand = 0 then 0.0
  else
    let size := ((natDigits significand).length : Int) + exponent
    if size > 310 then infinity
    else if size < -330 then 0.0
    else if 0 ≤ exponent then Float.ofScientific significand false exponent.toNat
    else Float.ofScientific significand true (-exponent).toNat

/-- Negates when asked to. -/
def withSign (negative : Bool) (x : Float) : Float := if negative then -x else x

/-! ## Numerals -/

/-- An unsigned numeral: the digits as one number and the power of ten they are scaled by. -/
structure Numeral where
  significand : Nat
  exponent : Int

/-- An optional sign at the head of a text. -/
def takeSign : List Char → Bool × List Char
  | '-' :: cs => (true, cs)
  | '+' :: cs => (false, cs)
  | cs => (false, cs)

/-- An exponent part, if one stands at the head: `none` when its digits are missing. -/
def takeExponent : List Char → Option (Int × List Char)
  | [] => some (0, [])
  | c :: cs =>
    if c == 'e' || c == 'E' then
      let (negative, cs) := takeSign cs
      let (ds, rest) := spanDigits cs
      if ds.isEmpty then none
      else
        let n : Int := natOfDigits 0 ds
        some (if negative then -n else n, rest)
    else some (0, c :: cs)

/-- A numeral at the head of a text and what follows it; at least one digit is needed. -/
def takeNumeral (cs : List Char) : Option (Numeral × List Char) :=
  let (whole, rest) := spanDigits cs
  let (fraction, rest) := match rest with
    | '.' :: rest => spanDigits rest
    | rest => ([], rest)
  if whole.isEmpty && fraction.isEmpty then none
  else
    (takeExponent rest).map fun (e, rest) =>
      (⟨natOfDigits (natOfDigits 0 whole) fraction, e - fraction.length⟩, rest)

/-- A text read as a float, all of it. -/
def readFloat? (s : String) : Option Float :=
  let (negative, cs) := takeSign s.toList
  let word := String.ofList (cs.map Char.toLower)
  if word == "inf" || word == "infinity" then some (withSign negative infinity)
  else if word == "nan" then some notANumber
  else
    match takeNumeral cs with
    | some (n, []) => some (withSign negative (nearestFloat n.significand n.exponent))
    | _ => none

end Conveyor.Decimal
