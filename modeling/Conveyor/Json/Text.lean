/-
Values as plain text and as numbers.

Text that is shown to people drops what only matters to a reader of JSON: strings lose their quotes,
null is empty, and a whole float is written as an integer. Going the other way, a string counts as a
number when all of it, blanks around it aside, is a numeral.
-/
import Conveyor.Text.Blank
import Conveyor.Json.Printer

set_option autoImplicit false

namespace Conveyor.Json

/-- A number as plain text: whole floats below `10 ^ 15` lose their fraction, and no exponent is
ever written (`format_number`). -/
def Number.plain : Number → String
  | .int i => Decimal.intText i
  | .float x =>
    match Decimal.wholeOfFloat? x with
    | some i => if i.natAbs < 10 ^ (15 : Nat) then Decimal.intText i else Decimal.positionalText x
    | none => Decimal.positionalText x

/-- A value as plain text; arrays and objects are written as compact JSON (`stringify`). -/
def plainText : Json → String
  | null => ""
  | bool b => if b then "true" else "false"
  | num n => n.plain
  | str s => s
  | arr xs => render (arr xs)
  | obj o => render (obj o)

/-- A string as a number, blanks around it aside. -/
def numberOfText? (s : String) : Option Float := Decimal.readFloat? (Text.trimString s)

/-- A value as a number, if it is one or spells one (`as_number`). -/
def asNumber? : Json → Option Float
  | num n => some n.toFloat
  | str s => numberOfText? s
  | _ => none

end Conveyor.Json
