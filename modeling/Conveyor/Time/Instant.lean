/-
Moments in universal time.

A moment is a count of seconds from the start of 1970 and a fraction in nanoseconds. A fraction of
one second or more lies inside a leap second: it sorts after the second it belongs to and before
the next one, and is written as second sixty.
-/
import Conveyor.Decimal.Layout
import Conveyor.Time.Calendar

set_option autoImplicit false

namespace Conveyor.Time

/-- A moment in universal time. -/
structure Instant where
  seconds : Int
  nanos : Nat
  deriving DecidableEq, Repr

namespace Instant

/-- Seconds in a day. -/
def daySeconds : Int := 86400

/-- Order in time. -/
def compare (a b : Instant) : Ordering :=
  (Ord.compare a.seconds b.seconds).then (Ord.compare a.nanos b.nanos)

/-- Not later. -/
def le (a b : Instant) : Bool := (compare a b).isLE

/-- Earlier. -/
def lt (a b : Instant) : Bool := (compare a b).isLT

/-- The day a moment falls on. -/
def date (t : Instant) : Date := Date.ofDays (t.seconds.fdiv daySeconds)

/-- The start of the day. -/
def midnight (t : Instant) : Instant := ⟨t.date.toDays * daySeconds, 0⟩

/-- The moments of days that the calendar covers. -/
def inRange (t : Instant) : Bool :=
  (Date.mk minYear 1 1).toDays * daySeconds ≤ t.seconds &&
    t.seconds < ((Date.mk maxYear 12 31).toDays + 1) * daySeconds

/-- The moment of a day and a time of day. -/
def ofParts (d : Date) (hour minute second nanos : Nat) : Instant :=
  ⟨d.toDays * daySeconds + hour * 3600 + minute * 60 + second, nanos⟩

/-- The moment a number of milliseconds from the start of 1970, if the calendar covers it. -/
def ofMillis? (ms : Int) : Option Instant :=
  let t : Instant := ⟨ms.fdiv 1000, ((ms.fmod 1000) * 1000000).toNat⟩
  if t.inRange then some t else none

/-- The moment a number of milliseconds later, if the calendar covers it. -/
def addMillis? (t : Instant) (ms : Int) : Option Instant :=
  let total := t.nanos + (ms.fmod 1000).toNat * 1000000
  let u : Instant := ⟨t.seconds + ms.fdiv 1000 + (total / 1000000000 : Nat), total % 1000000000⟩
  if u.inRange then some u else none

/-! ## Text -/

/-- Two digits. -/
def twoDigits (n : Nat) : String := Decimal.padZeros 2 (Decimal.natText n)

/-- A year with at least four digits, signed when negative or longer. -/
def yearText (y : Int) : String :=
  let digits := Decimal.padZeros 4 (Decimal.natText y.natAbs)
  if y < 0 then "-" ++ digits else if y > 9999 then "+" ++ digits else digits

/-- Date and time to the second. -/
def secondsText (t : Instant) : String :=
  let d := t.date
  let s := (t.seconds.fmod daySeconds).toNat
  let second := s % 60 + t.nanos / 1000000000
  yearText d.year ++ "-" ++ twoDigits d.month ++ "-" ++ twoDigits d.day ++ "T" ++
    twoDigits (s / 3600) ++ ":" ++ twoDigits (s / 60 % 60) ++ ":" ++ twoDigits second

/-- Text with nine digits of fraction and a final `Z`. -/
def fullText (t : Instant) : String :=
  t.secondsText ++ "." ++ Decimal.padZeros 9 (Decimal.natText (t.nanos % 1000000000)) ++ "Z"

/-- The fraction with as few groups of three digits as show it. -/
def fractionText (nanos : Nat) : String :=
  if nanos = 0 then ""
  else if nanos % 1000000 = 0 then "." ++ Decimal.padZeros 3 (Decimal.natText (nanos / 1000000))
  else if nanos % 1000 = 0 then "." ++ Decimal.padZeros 6 (Decimal.natText (nanos / 1000))
  else "." ++ Decimal.padZeros 9 (Decimal.natText nanos)

/-- Text with a numeric offset. -/
def offsetText (t : Instant) : String :=
  t.secondsText ++ fractionText (t.nanos % 1000000000) ++ "+00:00"

/-- Text with a final `Z`. -/
def zuluText (t : Instant) : String := t.secondsText ++ fractionText (t.nanos % 1000000000) ++ "Z"

end Instant

end Conveyor.Time
