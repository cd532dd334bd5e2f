/-
Numbers as text.

A numeral is decimal or hexadecimal, with an optional sign and blanks around it. Digits alone make
an integer: hexadecimal ones wrap to 64 bits, decimal ones that do not fit make a float. A point or
an exponent makes a float, whose exponent counts powers of two after hexadecimal digits. Numbers are
written with fourteen significant digits, and a float always shows that it is one.
-/
import Conveyor.Decimal.Read
import Conveyor.Decimal.Rounded
import Conveyor.Lua.Value

set_option autoImplicit false

namespace Conveyor.Lua.Numeral

/-! ## Bytes -/

/-- White space: the blank and the control characters from tab to carriage return. -/
def isSpace (c : UInt8) : Bool := c == 32 || (9 ≤ c && c ≤ 13)

/-- Decimal digits. -/
def isDigit (c : UInt8) : Bool := 48 ≤ c && c ≤ 57

/-- ASCII letters. -/
def isLetter (c : UInt8) : Bool := (65 ≤ c && c ≤ 90) || (97 ≤ c && c ≤ 122)

/-- Hexadecimal digits. -/
def isHex (c : UInt8) : Bool := isDigit c || (65 ≤ c && c ≤ 70) || (97 ≤ c && c ≤ 102)

/-- The small letter of an ASCII letter. -/
def lower (c : UInt8) : UInt8 := if 65 ≤ c && c ≤ 90 then c + 32 else c

/-- The value of a digit or letter as a digit of a base up to 36. -/
def digitValue (c : UInt8) : Nat :=
  if isDigit c then c.toNat - 48 else (lower c).toNat - 87

/-- The number that digits of a base spell. -/
def natOf (base : Nat) (ds : List UInt8) : Nat := ds.foldl (fun n c => base * n + digitValue c) 0

/-! ## Reading -/

/-- An optional minus or plus, and what follows. -/
def takeSign : List UInt8 → Bool × List UInt8
  | 45 :: cs => (true, cs)
  | 43 :: cs => (false, cs)
  | cs => (false, cs)

/-- An exponent after one of two marks: `none` if there is no mark with digits behind it. -/
def takeExponent (mark : UInt8) : List UInt8 → Option Int × List UInt8
  | c :: cs =>
    if lower c == mark then
      let (negative, rest) := takeSign cs
      let (ds, rest) := rest.span isDigit
      if ds.isEmpty then (none, c :: cs)
      else
        let n : Int := natOf 10 ds
        (some (if negative then -n else n), rest)
    else (none, c :: cs)
  | [] => (none, [])

/-- Digits with an optional point: the digits, how many of them stand after the point, whether there
was a point, and what follows. -/
def takeDigits (isDigit : UInt8 → Bool) (cs : List UInt8) :
    List UInt8 × Nat × Bool × List UInt8 :=
  let (whole, rest) := cs.span isDigit
  match rest with
  | 46 :: rest =>
    let (fraction, rest) := rest.span isDigit
    (whole ++ fraction, fraction.length, true, rest)
  | rest => (whole, 0, false, rest)

/-- The float nearest to `m * 2 ^ e`. -/
def scaledByTwo (m : Nat) (e : Int) : Float :=
  if m = 0 then 0.0
  else if e > 4096 then Decimal.infinity
  else if (Nat.log2 m : Int) + e < -1200 then 0.0
  else if 0 ≤ e then Decimal.nearestFloat (m * 2 ^ e.toNat) 0
  else Decimal.nearestFloat (m * 5 ^ (-e).toNat) e

/-- A number without blanks and sign, all of the text. -/
def unsigned? (negative : Bool) (cs : List UInt8) : Option Value :=
  match cs with
  | 48 :: x :: rest =>
    if lower x == 120 then hexadecimal rest else decimal cs
  | cs => decimal cs
where
  hexadecimal (cs : List UInt8) : Option Value :=
    let (ds, places, point, rest) := takeDigits isHex cs
    let (exponent, rest) := takeExponent 112 rest
    if ds.isEmpty || !rest.isEmpty then none
    else if !point && exponent.isNone then
      let i := Int64.ofNat (natOf 16 ds)
      some (.int (if negative then -i else i))
    else
      some (.float (Decimal.withSign negative
        (scaledByTwo (natOf 16 ds) (exponent.getD 0 - 4 * places))))
  decimal (cs : List UInt8) : Option Value :=
    let (ds, places, point, rest) := takeDigits isDigit cs
    let (exponent, rest) := takeExponent 101 rest
    if ds.isEmpty || !rest.isEmpty then none
    else
      let n := natOf 10 ds
      if !point && exponent.isNone && (n < 2 ^ (63 : Nat) || (negative && n = 2 ^ (63 : Nat))) then
        let i := Int64.ofNat n
        some (.int (if negative then -i else i))
      else
        some (.float (Decimal.withSign negative
          (Decimal.nearestFloat n (exponent.getD 0 - places))))

/-- Blanks removed at both ends. -/
def trim (cs : List UInt8) : List UInt8 :=
  ((cs.dropWhile isSpace).reverse.dropWhile isSpace).reverse

/-- The number a text spells. -/
def read? (cs : List UInt8) : Option Value :=
  let (negative, rest) := takeSign (trim cs)
  unsigned? negative rest

/-- The number a byte string spells. -/
def ofBytes? (s : ByteArray) : Option Value := read? s.toList

/-! ## Writing -/

/-- Decimal text of an integer. -/
def intText (i : Int64) : String := Decimal.intText i.toInt

/-- Text of a float that is not finite. -/
def specialText (x : Float) : String :=
  if x.isNaN then "-nan" else if x < 0 then "-inf" else "inf"

/-- Fourteen significant digits, and `.0` behind what would look like an integer. -/
def floatText (x : Float) : String :=
  match Decimal.Binary.ofFloat? x with
  | none => specialText x
  | some b =>
    let digits := Decimal.generalForm b 14 false
    let sign := if b.negative then "-" else ""
    let mark := if digits.toList.all Char.isDigit then ".0" else ""
    sign ++ digits ++ mark

/-- The text of a number; other values have none. -/
def text? : Value → Option String
  | .int i => some (intText i)
  | .float x => some (floatText x)
  | _ => none

end Conveyor.Lua.Numeral
