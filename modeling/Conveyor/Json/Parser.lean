/-
Reading JSON text.

The grammar is the strict one: no comments, no trailing commas, no leading zeros, and at most 127
containers inside each other. A numeral without point and exponent that fits 64 bits is an integer.
Any other numeral is a float built from its leading digits, as many as fit an unsigned word of 64
bits, scaled by a power of ten in floating point; one too large for a float is refused.
-/
import Conveyor.Json.Value

set_option autoImplicit false

namespace Conveyor.Json.Parser

/-- The text after the value that was read, with that value. -/
abbrev Result (α : Type) := Option (α × List Char)

/-! ## Blanks and words -/

/-- Space, tab, line feed and carriage return. -/
def isSpace (c : Char) : Bool := c == ' ' || c == '\t' || c == '\n' || c == '\r'

/-- Skips blanks. -/
def skipSpace (cs : List Char) : List Char := cs.dropWhile isSpace

/-- The rest of a text after a given beginning. -/
def after : List Char → List Char → Option (List Char)
  | [], cs => some cs
  | _ :: _, [] => none
  | w :: ws, c :: cs => if w = c then after ws cs else none

/-! ## Numerals -/

/-- Leading digits that fit a word, how many digits were left out, and the rest. -/
def takeWord (acc : Nat) : List Char → Nat × List Char
  | [] => (acc, [])
  | c :: cs =>
    if c.isDigit && 10 * acc + Decimal.digitValue c < 2 ^ (64 : Nat) then
      takeWord (10 * acc + Decimal.digitValue c) cs
    else (acc, c :: cs)

/-- A significand scaled by a power of ten in floating point, 308 places at a time. -/
def scaleFrom : Nat → Float → Int → Option Float
  | 0, x, _ => some x
  | fuel + 1, x, e =>
    if e.natAbs ≤ 308 then
      let power := Float.ofScientific 1 false e.natAbs
      if 0 ≤ e then
        let y := x * power
        if y.isInf then none else some y
      else some (x / power)
    else if x == 0.0 then some x
    else if 0 ≤ e then none
    else scaleFrom fuel (x / 1e308) (e + 308)

/-- The float of a significand below `2 ^ 64` and a power of ten. -/
def scale (negative : Bool) (significand : Nat) (e : Int) : Option Number :=
  (scaleFrom 4 (Float.ofNat significand) e).map fun x => .float (Decimal.withSign negative x)

/-- An exponent part; a numeral whose exponent is beyond any float is zero, or refused if large. -/
def exponent (negative : Bool) (significand : Nat) (start : Int) (cs : List Char) :
    Result Number :=
  let (minus, cs) := Decimal.takeSign cs
  let (ds, rest) := Decimal.spanDigits cs
  if ds.isEmpty then none
  else
    let n := Decimal.natOfDigits 0 ds
    if n ≥ 2 ^ (31 : Nat) then
      if significand ≠ 0 && !minus then none
      else some (.float (Decimal.withSign negative 0.0), rest)
    else (scale negative significand (if minus then start - n else start + n)).map (·, rest)

/-- What may follow the digits of a float: an exponent, or nothing. -/
def floatTail (negative : Bool) (significand : Nat) (e : Int) (cs : List Char) : Result Number :=
  match cs with
  | 'e' :: cs => exponent negative significand e cs
  | 'E' :: cs => exponent negative significand e cs
  | cs => (scale negative significand e).map (·, cs)

/-- The digits after a point; at least one is read. -/
def fraction (negative : Bool) (significand : Nat) (e : Int) (cs : List Char) : Result Number :=
  match cs with
  | [] => none
  | c :: _ =>
    if !c.isDigit then none
    else
      let (word, rest) := takeWord significand cs
      let used := cs.length - rest.length
      floatTail negative word (e - used) (rest.dropWhile Char.isDigit)

/-- What follows the digits before the point. -/
def numberTail (negative : Bool) (word : Nat) (cs : List Char) : Result Number :=
  match cs with
  | '.' :: rest => fraction negative word 0 rest
  | 'e' :: rest => exponent negative word 0 rest
  | 'E' :: rest => exponent negative word 0 rest
  | cs =>
    if cs.head?.any Char.isDigit then
      let rest := cs.dropWhile Char.isDigit
      let dropped := cs.length - rest.length
      match rest with
      | '.' :: rest => fraction negative word dropped rest
      | rest => floatTail negative word dropped rest
    else if !negative then some (.int word, cs)
    else if word = 0 || word > 2 ^ (63 : Nat) then some (.float (-(Float.ofNat word)), cs)
    else some (.int (-(word : Int)), cs)

/-- A numeral. -/
def number (cs : List Char) : Result Number :=
  let (negative, cs) := match cs with
    | '-' :: cs => (true, cs)
    | cs => (false, cs)
  match cs with
  | [] => none
  | '0' :: rest => if rest.head?.any Char.isDigit then none else numberTail negative 0 rest
  | c :: _ =>
    if c.isDigit then
      let (word, rest) := takeWord 0 cs
      numberTail negative word rest
    else none

/-! ## Strings -/

/-- Value of a hexadecimal digit. -/
def hexValue (c : Char) : Option Nat :=
  if c.isDigit then some (c.toNat - 48)
  else if 'a' ≤ c && c ≤ 'f' then some (c.toNat - 87)
  else if 'A' ≤ c && c ≤ 'F' then some (c.toNat - 55)
  else none

/-- Four hexadecimal digits. -/
def hexWord : List Char → Option (Nat × List Char)
  | a :: b :: c :: d :: rest => do
    let a ← hexValue a
    let b ← hexValue b
    let c ← hexValue c
    let d ← hexValue d
    some (((a * 16 + b) * 16 + c) * 16 + d, rest)
  | _ => none

/-- The character of an escape by number, which may take two halves. -/
def unicodeEscape (cs : List Char) : Option (Char × List Char) := do
  let (high, rest) ← hexWord cs
  if 0xDC00 ≤ high && high < 0xE000 then none
  else if 0xD800 ≤ high && high < 0xDC00 then
    match rest with
    | '\\' :: 'u' :: rest =>
      let (low, rest) ← hexWord rest
      if 0xDC00 ≤ low && low < 0xE000 then
        some (Char.ofNat (0x10000 + (high - 0xD800) * 0x400 + (low - 0xDC00)), rest)
      else none
    | _ => none
  else some (Char.ofNat high, rest)

/-- The character a backslash and the text after it stand for. -/
def escape : List Char → Result Char
  | '"' :: cs => some ('"', cs)
  | '\\' :: cs => some ('\\', cs)
  | '/' :: cs => some ('/', cs)
  | 'b' :: cs => some ('\x08', cs)
  | 'f' :: cs => some ('\x0c', cs)
  | 'n' :: cs => some ('\n', cs)
  | 'r' :: cs => some ('\r', cs)
  | 't' :: cs => some ('\t', cs)
  | 'u' :: cs => unicodeEscape cs
  | _ => none

/-- The rest of a string after its opening quote; `acc` holds what was read, last first. -/
def stringBody : Nat → List Char → List Char → Result String
  | 0, _, _ => none
  | fuel + 1, acc, cs =>
    match cs with
    | [] => none
    | '"' :: rest => some (String.ofList acc.reverse, rest)
    | '\\' :: rest =>
      match escape rest with
      | some (c, rest) => stringBody fuel (c :: acc) rest
      | none => none
    | c :: rest => if c.toNat < 32 then none else stringBody fuel (c :: acc) rest

/-- A string after its opening quote. -/
def string (cs : List Char) : Result String := stringBody (cs.length + 1) [] cs

/-! ## Values

The first argument bounds the work; one more than twice the length of the text is always enough,
since every call reads a character first. The second is the number of containers still allowed. -/

mutual

/-- A value, blanks before it skipped. -/
def value : Nat → Nat → List Char → Result Json
  | 0, _, _ => none
  | fuel + 1, depth, cs =>
    match skipSpace cs with
    | [] => none
    | '"' :: rest => (string rest).map fun (s, rest) => (str s, rest)
    | '[' :: rest => if depth ≤ 1 then none else arrayStart fuel (depth - 1) (skipSpace rest)
    | '\x7b' :: rest => if depth ≤ 1 then none else objectStart fuel (depth - 1) (skipSpace rest)
    | 'n' :: rest => (after ['u', 'l', 'l'] rest).map (null, ·)
    | 't' :: rest => (after ['r', 'u', 'e'] rest).map (bool true, ·)
    | 'f' :: rest => (after ['a', 'l', 's', 'e'] rest).map (bool false, ·)
    | cs => (number cs).map fun (n, rest) => (num n, rest)

/-- An array after its opening bracket. -/
def arrayStart : Nat → Nat → List Char → Result Json
  | 0, _, _ => none
  | fuel + 1, depth, cs =>
    match cs with
    | ']' :: rest => some (arr [], rest)
    | cs => items fuel depth [] cs

/-- The entries of an array, at least one; `acc` holds the earlier ones, last first. -/
def items : Nat → Nat → List Json → List Char → Result Json
  | 0, _, _, _ => none
  | fuel + 1, depth, acc, cs =>
    match value fuel depth cs with
    | none => none
    | some (v, rest) =>
      match skipSpace rest with
      | ']' :: rest => some (arr (v :: acc).reverse, rest)
      | ',' :: rest => items fuel depth (v :: acc) rest
      | _ => none

/-- An object after its opening brace. -/
def objectStart : Nat → Nat → List Char → Result Json
  | 0, _, _ => none
  | fuel + 1, depth, cs =>
    match cs with
    | '\x7d' :: rest => some (obj [], rest)
    | cs => members fuel depth [] cs

/-- The members of an object, at least one; `acc` holds the earlier ones, last first. -/
def members : Nat → Nat → List (String × Json) → List Char → Result Json
  | 0, _, _, _ => none
  | fuel + 1, depth, acc, cs =>
    match skipSpace cs with
    | '"' :: rest =>
      match string rest with
      | none => none
      | some (name, rest) =>
        match skipSpace rest with
        | ':' :: rest =>
          match value fuel depth rest with
          | none => none
          | some (v, rest) =>
            match skipSpace rest with
            | '\x7d' :: rest => some (obj (Named.ofPairs ((name, v) :: acc).reverse), rest)
            | ',' :: rest => members fuel depth ((name, v) :: acc) rest
            | _ => none
        | _ => none
    | _ => none

end

end Conveyor.Json.Parser

namespace Conveyor.Json

/-- The value a text spells, if it is one JSON value with only blanks around it. -/
def parse? (s : String) : Option Json :=
  let cs := s.toList
  match Parser.value (2 * cs.length + 2) 128 cs with
  | some (v, rest) => if (Parser.skipSpace rest).isEmpty then some v else none
  | none => none

end Conveyor.Json
