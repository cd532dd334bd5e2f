/-
Formatted text.

A format is text with conversions. A conversion has flags, a width and a precision of at most two
digits each, and a letter that says what kind of argument it takes and how that is written. Which
flags a letter allows is part of its rule, and a conversion that breaks its rule is refused as a
whole.
-/
import Conveyor.Lua.Native
import Conveyor.Text.Utf8

set_option autoImplicit false

namespace Conveyor.Lua.Format

open Numeral

/-- A conversion: its flags, width, precision (if it has a point) and letter. -/
structure Spec where
  flags : List UInt8
  width : Nat
  precision : Option Nat
  letter : UInt8

namespace Spec

/-- Whether a flag is set. -/
def has (s : Spec) (flag : Char) : Bool := s.flags.contains (UInt8.ofNat flag.toNat)

end Spec

/-! ## Reading conversions -/

/-- The characters a conversion may have before its letter. -/
def isSpecByte (c : UInt8) : Bool := "-+ #0123456789.".toUTF8.toList.contains c

/-- The longest conversion. -/
def maxSpec : Nat := 22

/-- At most two digits. -/
def twoDigits (cs : List UInt8) : List UInt8 × List UInt8 :=
  let ds := (cs.take 2).takeWhile isDigit
  (ds, cs.drop ds.length)

/-- The refusal of an unknown letter. -/
def unknown (text : List UInt8) : Fault :=
  .located ("invalid conversion '%" ++ Text.lossy (ByteArray.mk text.toArray) ++ "' to 'format'")

/-- The refusal of a conversion that breaks the rule of its letter. -/
def invalid (text : List UInt8) : Fault :=
  .located ("invalid conversion specification: '%" ++ Text.lossy (ByteArray.mk text.toArray) ++ "'")

/-- Takes a conversion apart, given the flags its letter allows and whether it allows a
precision. -/
def specOf (text : List UInt8) (allowed : String) (precise : Bool) : Except Fault Spec :=
  let (flags, rest) := text.span fun c => allowed.toUTF8.toList.contains c
  let letter := text.getLastD 0
  match rest with
  | 48 :: _ => .error (invalid text)
  | rest =>
    let (width, rest) := twoDigits rest
    let (precision, rest) := match rest with
      | 46 :: after =>
        if precise then
          let (ds, after) := twoDigits after
          (some (natOf 10 ds), after)
        else (none, rest)
      | rest => (none, rest)
    if rest == [letter] && isLetter letter then
      .ok ⟨flags, natOf 10 width, precision, letter⟩
    else .error (invalid text)

/-! ## Writing -/

/-- Blanks to the width of a conversion. -/
def pad (s : Spec) (text : String) : String :=
  let missing := String.ofList (List.replicate (s.width - text.length) ' ')
  if s.has '-' then text ++ missing else missing ++ text

/-- Blanks to the width of a conversion, for bytes. -/
def padBytes (s : Spec) (text : ByteArray) : ByteArray :=
  let missing := ByteArray.mk (Array.replicate (s.width - text.size) 32)
  if s.has '-' then text ++ missing else missing ++ text

/-- A sign and digits, with zeros between them if the conversion asks for it. -/
def padNumber (s : Spec) (sign digits : String) (zeros : Bool) : String :=
  if zeros && s.has '0' && !s.has '-' then
    sign ++ Decimal.padZeros (s.width - sign.length) digits
  else pad s (sign ++ digits)

/-- The sign of a number that is not negative. -/
def plusSign (s : Spec) : String := if s.has '+' then "+" else if s.has ' ' then " " else ""

/-- Digits of an integer, as many as the precision asks for. -/
def integerDigits (s : Spec) (digits : String) (zero : Bool) : String :=
  match s.precision with
  | some 0 => if zero then "" else digits
  | some p => Decimal.padZeros p digits
  | none => digits

/-- A signed integer. -/
def signed (s : Spec) (i : Int64) : String :=
  let n := i.toInt
  let sign := if n < 0 then "-" else plusSign s
  padNumber s sign (integerDigits s (Decimal.natText n.natAbs) (n == 0)) s.precision.isNone

/-- Octal digits of a number. -/
def octalText (n : Nat) : String :=
  if n = 0 then "0" else String.ofList ((digits n n []).map fun d => Char.ofNat (48 + d))
where
  digits : (fuel n : Nat) → List Nat → List Nat
    | 0, _, acc => acc
    | fuel + 1, n, acc => if n = 0 then acc else digits fuel (n / 8) (n % 8 :: acc)

/-- The 64 bits of an integer in base ten, eight or sixteen. -/
def unsigned (s : Spec) (i : Int64) : String :=
  let n := i.toUInt64.toNat
  let capital := s.letter == 88
  let (mark, digits) :=
    if s.letter == 117 then ("", Decimal.natText n)
    else if s.letter == 111 then
      ("", if s.has '#' && n != 0 then "0" ++ octalText n else octalText n)
    else (if s.has '#' && n != 0 then (if capital then "0X" else "0x") else "", hexText n capital)
  padNumber s mark (integerDigits s digits (n == 0)) s.precision.isNone

/-- Hexadecimal digits of a fraction of 52 bits, zeros at the end dropped. -/
def fractionText (fraction : Nat) (capital : Bool) : String :=
  let digits := (Decimal.padZeros 13 (hexText fraction capital)).toList
  let kept := (digits.reverse.dropWhile (· == '0')).reverse
  if kept.isEmpty then "" else "." ++ String.ofList kept

/-- A float by its bits: a hexadecimal fraction and a power of two. -/
def bitText (b : Decimal.Binary) (capital : Bool) : String :=
  let (lead, fraction, e) :=
    if b.significand = 0 then ("0", 0, (0 : Int))
    else if b.significand < 2 ^ (52 : Nat) then ("0", b.significand, -1022)
    else ("1", b.significand - 2 ^ (52 : Nat), b.exponent + 52)
  let mark := if capital then ("0X", "P") else ("0x", "p")
  mark.1 ++ lead ++ fractionText fraction capital ++ mark.2 ++ (if e < 0 then "-" else "+") ++
    Decimal.natText e.natAbs

/-- A float. -/
def floating (s : Spec) (x : Float) : String :=
  match Decimal.Binary.ofFloat? x with
  | none =>
    let text := if x.isNaN then "nan" else "inf"
    let sign := if x.isNaN || x < 0 then "-" else plusSign s
    let shown := sign ++ text
    pad s (if isCapital then shown.toUpper else shown)
  | some b =>
    let p := s.precision.getD 6
    let text :=
      if kind == 102 then Decimal.fixedForm b p (s.has '#')
      else if kind == 101 then Decimal.scientificForm b p (s.has '#')
      else if kind == 103 then Decimal.generalForm b p (s.has '#')
      else bitText b isCapital
    padNumber s (if b.negative then "-" else plusSign s)
      (if isCapital then text.toUpper else text) true
where
  kind : UInt8 := lower s.letter
  isCapital : Bool := s.letter != lower s.letter

/-- A string literal that reads back as the bytes. -/
def literal : List UInt8 → List UInt8
  | [] => []
  | c :: cs =>
    if c == 34 || c == 92 || c == 10 then 92 :: c :: literal cs
    else if c < 32 || c == 127 then
      let digits := Decimal.natText c.toNat
      let digits := if (cs.headD 0 |> isDigit) then Decimal.padZeros 3 digits else digits
      92 :: digits.toUTF8.toList ++ literal cs
    else c :: literal cs

/-- A value as the program text that stands for it. -/
def quoted (i : Nat) (v : Value) : Except Fault ByteArray :=
  match v with
  | .str s => .ok (ByteArray.mk ((34 :: literal s.toList ++ [34]).toArray))
  | .int n => .ok (if n == Int64.minValue then "0x8000000000000000" else intText n).toUTF8
  | .float x =>
    .ok <| String.toUTF8 <|
      match Decimal.Binary.ofFloat? x with
      | some b => (if b.negative then "-" else "") ++ bitText b false
      | none => if x.isNaN then "(0/0)" else if x < 0 then "-1e9999" else "1e9999"
  | .nil | .bool _ => .ok (textOfValue v)
  | _ => .error (.argument i "value has no literal form")

/-- An argument written by a conversion. -/
def convert (text : List UInt8) (args : List Value) (i : Nat) : Except Fault ByteArray := do
  let letter := text.getLastD 0
  let is (c : Char) : Bool := letter == UInt8.ofNat c.toNat
  if is 'c' then
    let s ← specOf text "-" false
    let n ← checkInt args i
    return padBytes s (ByteArray.mk #[n.toUInt64.toUInt8])
  else if is 'd' || is 'i' then
    let n ← checkInt args i
    return (signed (← specOf text "-+0 " true) n).toUTF8
  else if is 'u' then
    let n ← checkInt args i
    return (unsigned (← specOf text "-0" true) n).toUTF8
  else if is 'o' || is 'x' || is 'X' then
    let n ← checkInt args i
    return (unsigned (← specOf text "-#0" true) n).toUTF8
  else if is 'a' || is 'A' then
    let s ← specOf text "-+ #0" true
    return (floating s (← checkFloat args i)).toUTF8
  else if is 'f' || is 'e' || is 'E' || is 'g' || is 'G' then
    let x ← checkFloat args i
    return (floating (← specOf text "-+ #0" true) x).toUTF8
  else if is 'q' then
    if text.length != 1 then .error (.located "specifier '%q' cannot have modifiers")
    else quoted i (argument args i)
  else if is 's' then
    let v := textOfValue (argument args i)
    if text.length = 1 then return v
    else
      checkThat (!v.toList.contains 0) i "string contains zeros"
      let s ← specOf text "-" true
      if !text.contains 46 && 100 ≤ v.size then return v
      else return padBytes s (v.extract 0 (s.precision.getD v.size))
  else if is 'p' then
    let s ← specOf text "-" false
    let v := argument args i
    let shown := match v with
      | .table ref => (referenceText "" ref).drop 2 |>.toString
      | .function ref => (referenceText "" ref).drop 2 |>.toString
      | _ => "(null)"
    return (pad s shown).toUTF8
  else .error (unknown text)

/-- A format with its arguments; `i` is the argument used last. -/
def render (args : List Value) : (fuel i : Nat) → List UInt8 → ByteArray → Except Fault ByteArray
  | 0, _, _, out => .ok out
  | _, _, [], out => .ok out
  | fuel + 1, i, c :: cs, out =>
    if c != 37 then render args fuel i cs (out.push c)
    else
      match cs with
      | 37 :: cs => render args fuel i cs (out.push 37)
      | cs =>
        if args.length ≤ i then .error (.argument (i + 1) "no value")
        else
          let (head, rest) := cs.span isSpecByte
          if maxSpec ≤ head.length + 1 then
            .error (.located "invalid format string to 'format'")
          else
            match convert (head ++ rest.take 1) args (i + 1) with
            | .ok s => render args fuel (i + 1) (rest.drop 1) (out ++ s)
            | .error e => .error e

end Conveyor.Lua.Format
