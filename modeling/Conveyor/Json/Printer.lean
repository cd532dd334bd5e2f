/-
Compact JSON text.

No blanks are written. Strings escape the quote, the backslash and the control characters, and
nothing else. Floats are written with the fewest digits that read back and always show that they
are floats.
-/
import Conveyor.Decimal.Layout
import Conveyor.Json.Value

set_option autoImplicit false

namespace Conveyor.Json

/-! ## Scalars -/

/-- JSON floats are positional for exponents from `-5` to `15`; an exponent has a sign and at least
two digits. -/
def floatStyle : Decimal.ScientificStyle := ⟨-5, 15, 2⟩

/-- Text of a number. -/
def Number.text : Number → String
  | .int i => Decimal.intText i
  | .float x => Decimal.styledText floatStyle x

/-- A hexadecimal digit in lower case. -/
def hexDigit (d : Nat) : Char := if d < 10 then Char.ofNat (48 + d) else Char.ofNat (87 + d)

/-- The written form of one character of a string. -/
def escapeChar (c : Char) : List Char :=
  if c = '"' then ['\\', '"']
  else if c = '\\' then ['\\', '\\']
  else if c = '\n' then ['\\', 'n']
  else if c = '\r' then ['\\', 'r']
  else if c = '\t' then ['\\', 't']
  else if c = '\x08' then ['\\', 'b']
  else if c = '\x0c' then ['\\', 'f']
  else if c.toNat < 32 then
    ['\\', 'u', '0', '0', hexDigit (c.toNat / 16), hexDigit (c.toNat % 16)]
  else [c]

/-- A string in quotes. -/
def quote (s : String) : String := "\"" ++ String.ofList (s.toList.flatMap escapeChar) ++ "\""

/-! ## Values -/

mutual

/-- Compact text of a value. -/
def render : Json → String
  | null => "null"
  | bool true => "true"
  | bool false => "false"
  | num n => n.text
  | str s => quote s
  | arr xs => "[" ++ ",".intercalate (renderItems xs) ++ "]"
  | obj o => "\x7b" ++ ",".intercalate (renderMembers o) ++ "\x7d"

/-- Texts of the entries of an array. -/
def renderItems : List Json → List String
  | [] => []
  | x :: xs => render x :: renderItems xs

/-- Texts of the members of an object. -/
def renderMembers : List (String × Json) → List String
  | [] => []
  | (k, v) :: rest => (quote k ++ ":" ++ render v) :: renderMembers rest

end

end Conveyor.Json
