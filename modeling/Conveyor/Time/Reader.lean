/-
Reading dates and times.

The forms are tried in a fixed order: the internet form with an offset, the mail form, four layouts
of a local date and time, and three layouts of a date alone. What has no offset is universal time,
and a date alone is its midnight. The layouts allow blanks before a number and numbers without
leading zeros; the first two forms do not.
-/
import Conveyor.Decimal.Read
import Conveyor.Text.Blank
import Conveyor.Time.Instant

set_option autoImplicit false

namespace Conveyor.Time.Reader

/-- What was read, and the text after it. -/
abbrev Step (α : Type) := Option (α × List Char)

/-! ## Pieces -/

/-- Takes up to `most` digits at the head of a text. -/
def takeDigits : Nat → List Char → List Char × List Char
  | 0, cs => ([], cs)
  | _ + 1, [] => ([], [])
  | n + 1, c :: cs =>
    if c.isDigit then
      let (ds, rest) := takeDigits n cs
      (c :: ds, rest)
    else ([], c :: cs)

/-- A number of at least `least` and at most `most` digits. -/
def number (least most : Nat) (cs : List Char) : Option (Nat × List Char) :=
  let (ds, rest) := takeDigits most cs
  let n := Decimal.natOfDigits 0 ds
  if ds.length < least || n ≥ 2 ^ (63 : Nat) then none else some (n, rest)

/-- The character `c`. -/
def mark (c : Char) : List Char → Option (List Char)
  | d :: rest => if c = d then some rest else none
  | [] => none

/-- At least one blank, and all that follow. -/
def blanks : List Char → Option (List Char)
  | c :: rest => if Text.isBlank c then some (Text.trimStart rest) else none
  | [] => none

/-- A fraction after its point: at least one digit, digits past the ninth dropped. -/
def fraction (cs : List Char) : Option (Nat × List Char) :=
  let (ds, rest) := takeDigits 9 cs
  if ds.isEmpty then none
  else
    some (Decimal.natOfDigits 0 ds * 10 ^ (9 - ds.length), rest.dropWhile Char.isDigit)

/-- An optional fraction, its point included. -/
def optionalFraction : List Char → Option (Nat × List Char)
  | '.' :: cs => fraction cs
  | cs => some (0, cs)

/-- Hours and minutes of an offset, in seconds; `colon` says whether a colon parts them. -/
def offsetDigits (colon : Bool) (cs : List Char) : Option (Nat × List Char) := do
  let (h, cs) ← number 2 2 cs
  let cs ← if colon then mark ':' cs else some cs
  let (m, cs) ← number 2 2 cs
  if m < 60 then some (h * 3600 + m * 60, cs) else none

/-- A signed offset. A typographic minus sign is understood where `anyMinus` says so. -/
def signedOffset (colon anyMinus : Bool) : List Char → Option (Int × List Char)
  | '+' :: cs => (offsetDigits colon cs).map fun (n, rest) => ((n : Int), rest)
  | '-' :: cs => (offsetDigits colon cs).map fun (n, rest) => (-(n : Int), rest)
  | '\u2212' :: cs =>
    if anyMinus then (offsetDigits colon cs).map fun (n, rest) => (-(n : Int), rest) else none
  | _ => none

/-! ## Fields -/

/-- A time of day; second sixty is a leap second. -/
structure Clock where
  hour : Nat
  minute : Nat
  second : Nat
  nanos : Nat

/-- The moment of a date and a local time, an offset east of universal time taken off. -/
def moment (year : Int) (month day : Nat) (c : Clock) (offset : Int) : Option Instant := do
  let d ← Date.of? year month day
  if c.hour > 23 || c.minute > 59 || c.second > 60 || offset.natAbs ≥ 86400 then none
  else
    let leap := c.second == 60
    let t := Instant.ofParts d c.hour c.minute (if leap then 59 else c.second)
      (if leap then c.nanos + 1000000000 else c.nanos)
    let u : Instant := ⟨t.seconds - offset, t.nanos⟩
    if u.inRange then some u else none

/-! ## The internet form -/

/-- Offset of the internet form: `Z` or hours and minutes parted by a colon. -/
def internetOffset : List Char → Option (Int × List Char)
  | 'Z' :: cs => some (0, cs)
  | 'z' :: cs => some (0, cs)
  | cs => signedOffset true true cs

/-- `2024-05-01T10:20:30.5+02:00`. -/
def internet (cs : List Char) : Option Instant := do
  let (year, cs) ← number 4 4 cs
  let cs ← mark '-' cs
  let (month, cs) ← number 2 2 cs
  let cs ← mark '-' cs
  let (day, cs) ← number 2 2 cs
  let cs ← match cs with
    | c :: rest => if c == 'T' || c == 't' || c == ' ' then some rest else none
    | [] => none
  let (hour, cs) ← number 2 2 cs
  let cs ← mark ':' cs
  let (minute, cs) ← number 2 2 cs
  let cs ← mark ':' cs
  let (second, cs) ← number 2 2 cs
  let (nanos, cs) ← optionalFraction cs
  let (offset, cs) ← internetOffset cs
  if cs.isEmpty then moment year month day ⟨hour, minute, second, nanos⟩ offset else none

/-! ## The mail form -/

/-- The three letters at the head of a text, in lower case. -/
def threeLetters : List Char → Option (List Char × List Char)
  | a :: b :: c :: rest => some ([a.toLower, b.toLower, c.toLower], rest)
  | _ => none

/-- Position of a word in a list of words. -/
def wordIndex (words : List String) (w : List Char) : Option Nat :=
  words.findIdx? (· == String.ofList w)

/-- Short names of the days of the week. -/
def dayNames : List String := ["mon", "tue", "wed", "thu", "fri", "sat", "sun"]

/-- Short names of the months. -/
def monthNames : List String :=
  ["jan", "feb", "mar", "apr", "may", "jun", "jul", "aug", "sep", "oct", "nov", "dec"]

/-- A short name at the head of a text. -/
def nameIn (words : List String) (cs : List Char) : Option (Nat × List Char) := do
  let (w, rest) ← threeLetters cs
  let i ← wordIndex words w
  some (i, rest)

/-- The year of a two-digit or three-digit number. -/
def fullYear (digits year : Nat) : Nat :=
  if digits = 2 then (if year < 50 then year + 2000 else year + 1900)
  else if digits = 3 then year + 1900
  else year

/-- Hours of the named offsets. -/
def namedOffset (name : String) : Option Int :=
  match name with
  | "gmt" | "ut" | "z" => some 0
  | "edt" => some (-4)
  | "est" | "cdt" => some (-5)
  | "cst" | "mdt" => some (-6)
  | "mst" | "pdt" => some (-7)
  | "pst" => some (-8)
  | name => if name.length = 1 && name != "j" then some 0 else none

/-- Offset of the mail form: a name, or hours and minutes run together. -/
def mailOffset (cs : List Char) : Option (Int × List Char) :=
  match cs.span Char.isAlpha with
  | ([], cs) => signedOffset false false cs
  | (name, rest) =>
    (namedOffset (String.ofList (name.map Char.toLower))).map fun h => (h * 3600, rest)

/-- The rest of a comment `depth` parentheses deep. -/
def commentBody : Nat → List Char → Option (List Char)
  | _, [] => none
  | depth, '\\' :: _ :: cs => commentBody depth cs
  | depth, '(' :: cs => commentBody (depth + 1) cs
  | depth, ')' :: cs => if depth ≤ 1 then some cs else commentBody (depth - 1) cs
  | depth, _ :: cs => commentBody depth cs

/-- Comments in parentheses at the head of a text, with the blanks before them. -/
def skipComments : Nat → List Char → List Char
  | 0, cs => cs
  | fuel + 1, cs =>
    match Text.trimStart cs with
    | '(' :: rest =>
      match commentBody 1 rest with
      | some rest => skipComments fuel rest
      | none => cs
    | _ => cs

/-- A day of the week and its comma, if the text starts with one. -/
def mailWeekday (cs : List Char) : Option (Option Nat × List Char) :=
  match nameIn dayNames cs with
  | some (i, ',' :: rest) => some (some i, rest)
  | some _ => none
  | none => some (none, cs)

/-- Optional seconds after a colon. -/
def mailSeconds (cs : List Char) : Option (Nat × List Char) :=
  match Text.trimStart cs with
  | ':' :: rest => number 2 2 rest
  | _ => some (0, cs)

/-- `Wed, 1 May 2024 10:20:30 +0200`, the day of the week and the seconds optional. -/
def mail (cs : List Char) : Option Instant := do
  let (weekday, cs) ← mailWeekday (Text.trimStart cs)
  let (day, cs) ← number 1 2 (Text.trimStart cs)
  let cs ← blanks cs
  let (month, cs) ← nameIn monthNames cs
  let cs ← blanks cs
  let before := cs.length
  let (year, cs) ← number 2 cs.length cs
  let year := fullYear (before - cs.length) year
  let cs ← blanks cs
  let (hour, cs) ← number 2 2 cs
  let cs ← mark ':' (Text.trimStart cs)
  let (minute, cs) ← number 2 2 (Text.trimStart cs)
  let (second, cs) ← mailSeconds cs
  let cs ← blanks cs
  let (offset, cs) ← mailOffset cs
  let cs := skipComments (cs.length + 1) cs
  let d ← Date.of? year (month + 1) day
  if cs.isEmpty && weekday.all (· == d.weekday) then
    moment year (month + 1) day ⟨hour, minute, second, 0⟩ offset
  else none

/-! ## Layouts -/

/-- A piece of a layout. -/
inductive Piece where
  | year
  | month
  | day
  | hour
  | minute
  | second
  | optionalFraction
  | blanks
  | mark (c : Char)

/-- The fields a layout has read so far. -/
structure Fields where
  year : Int := 0
  month : Nat := 0
  day : Nat := 0
  clock : Clock := ⟨0, 0, 0, 0⟩

/-- A year: with a sign it may have any number of digits, without one at most four. -/
def layoutYear (cs : List Char) : Option (Int × List Char) :=
  match Text.trimStart cs with
  | '-' :: cs => (number 1 cs.length cs).map fun (n, rest) => (-(n : Int), rest)
  | '+' :: cs => (number 1 cs.length cs).map fun (n, rest) => ((n : Int), rest)
  | cs => (number 1 4 cs).map fun (n, rest) => ((n : Int), rest)

/-- A number of one or two digits, blanks before it skipped. -/
def layoutNumber (cs : List Char) : Option (Nat × List Char) := number 1 2 (Text.trimStart cs)

/-- Reads one piece. -/
def Piece.read (f : Fields) (cs : List Char) : Piece → Option (Fields × List Char)
  | .year => (layoutYear cs).map fun (n, rest) => ({ f with year := n }, rest)
  | .month => (layoutNumber cs).map fun (n, rest) => ({ f with month := n }, rest)
  | .day => (layoutNumber cs).map fun (n, rest) => ({ f with day := n }, rest)
  | .hour =>
    (layoutNumber cs).map fun (n, rest) => ({ f with clock := { f.clock with hour := n } }, rest)
  | .minute =>
    (layoutNumber cs).map fun (n, rest) => ({ f with clock := { f.clock with minute := n } }, rest)
  | .second =>
    (layoutNumber cs).map fun (n, rest) => ({ f with clock := { f.clock with second := n } }, rest)
  | .optionalFraction =>
    (Reader.optionalFraction cs).map fun (n, rest) =>
      ({ f with clock := { f.clock with nanos := n } }, rest)
  | .blanks => some (f, Text.trimStart cs)
  | .mark c => (Reader.mark c cs).map fun rest => (f, rest)

/-- Reads a text by a layout, all of it. -/
def readLayout (cs : List Char) : List Piece → Fields → Option Fields
  | [], f => if cs.isEmpty then some f else none
  | p :: ps, f =>
    match p.read f cs with
    | some (f, rest) => readLayout rest ps f
    | none => none

/-- Year, month and day parted by a character. -/
def ymd (c : Char) : List Piece := [.year, .mark c, .month, .mark c, .day]

/-- Hour and minute. -/
def hm : List Piece := [.hour, .mark ':', .minute]

/-- Seconds with an optional fraction. -/
def seconds : List Piece := [.mark ':', .second, .optionalFraction]

/-- The layouts, in the order in which they are tried (`DATE_TIME_LAYOUTS` and `DATE_LAYOUTS`). -/
def layouts : List (List Piece) :=
  [ymd '-' ++ [.mark 'T'] ++ hm ++ seconds,
   ymd '-' ++ [.blanks] ++ hm ++ seconds,
   ymd '-' ++ [.mark 'T'] ++ hm,
   ymd '-' ++ [.blanks] ++ hm,
   ymd '-',
   ymd '/',
   [.month, .mark '/', .day, .mark '/', .year]]

/-- A text read by one layout. -/
def byLayout (cs : List Char) (layout : List Piece) : Option Instant := do
  let f ← readLayout cs layout {}
  moment f.year f.month f.day f.clock 0

end Conveyor.Time.Reader

namespace Conveyor.Time

/-- The moment a text names, blanks around it aside (`parse_date_time`). -/
def Instant.read? (s : String) : Option Instant :=
  let cs := Text.trim s.toList
  (Reader.internet cs) <|> (Reader.mail cs) <|> Reader.layouts.findSome? (Reader.byLayout cs)

end Conveyor.Time
