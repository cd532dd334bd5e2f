/-
The calendar.

Days are counted from the first of January 1970 in the proleptic Gregorian calendar. Years are
counted from March, so that the leap day is the last day of a year and the length of the months
before a given one is a linear formula.
-/

set_option autoImplicit false

namespace Conveyor.Time

/-- A day of the calendar. -/
structure Date where
  year : Int
  month : Nat
  day : Nat
  deriving DecidableEq, Repr

/-- Years divisible by four, hundreds excepted unless divisible by four hundred. -/
def isLeapYear (year : Int) : Bool :=
  year % 4 == 0 && (year % 100 != 0 || year % 400 == 0)

/-- The number of days of a month; none for what is no month. -/
def daysInMonth (year : Int) (month : Nat) : Nat :=
  match month with
  | 1 | 3 | 5 | 7 | 8 | 10 | 12 => 31
  | 4 | 6 | 9 | 11 => 30
  | 2 => if isLeapYear year then 29 else 28
  | _ => 0

/-- The first year that dates are kept for. -/
def minYear : Int := -262143

/-- The last year that dates are kept for. -/
def maxYear : Int := 262142

/-- The date of a year, month and day, if there is one. -/
def Date.of? (year : Int) (month day : Nat) : Option Date :=
  if minYear ≤ year && year ≤ maxYear && 1 ≤ day && day ≤ daysInMonth year month then
    some ⟨year, month, day⟩
  else none

/-- Days from 1970-01-01 to a date. -/
def Date.toDays (d : Date) : Int :=
  let y := if d.month ≤ 2 then d.year - 1 else d.year
  let era := y.fdiv 400
  let yearOfEra := y - era * 400
  let monthFromMarch : Int := ((d.month + 9) % 12 : Nat)
  let dayOfYear := (153 * monthFromMarch + 2) / 5 + (d.day : Int) - 1
  let dayOfEra := yearOfEra * 365 + yearOfEra / 4 - yearOfEra / 100 + dayOfYear
  era * 146097 + dayOfEra - 719468

/-- The date a number of days from 1970-01-01. -/
def Date.ofDays (days : Int) : Date :=
  let z := days + 719468
  let era := z.fdiv 146097
  let dayOfEra := z - era * 146097
  let yearOfEra :=
    (dayOfEra - dayOfEra / 1460 + dayOfEra / 36524 - dayOfEra / 146096) / 365
  let dayOfYear := dayOfEra - (365 * yearOfEra + yearOfEra / 4 - yearOfEra / 100)
  let mp := (5 * dayOfYear + 2) / 153
  let day := (dayOfYear - (153 * mp + 2) / 5 + 1).toNat
  let month := if mp < 10 then (mp + 3).toNat else (mp - 9).toNat
  let year := yearOfEra + era * 400 + (if month ≤ 2 then 1 else 0)
  ⟨year, month, day⟩

/-- Day of the week, Monday being zero. -/
def Date.weekday (d : Date) : Nat := ((d.toDays + 3) % 7).toNat

end Conveyor.Time
