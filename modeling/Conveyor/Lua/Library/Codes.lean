/-
Functions on UTF-8 text.
-/
import Conveyor.Lua.Lexeme
import Conveyor.Lua.Native

set_option autoImplicit false

namespace Conveyor.Lua.Library

/-- A relative position in a text of a length: negative ones count from the end. -/
def relative (i : Int) (length : Nat) : Int :=
  if 0 ≤ i then i else if (length : Int) < -i then 0 else length + i + 1

/-- The code point at the head of bytes, with the number of its bytes; `none` if they encode
none. -/
def decodeCode? (bs : List UInt8) : Option (Nat × Nat) :=
  match bs with
  | [] => none
  | b :: rest =>
    match Text.sequenceOf b with
    | none => none
    | some (n, lo, hi) =>
      let tail := Text.takeContinuation n lo hi rest
      if tail.length = n then some (Text.codePoint b n tail, n + 1) else none

/-- The text of code points. -/
def ofCodes (args : List Value) : Except Fault (List Value) := do
  let pieces ← (List.range args.length).mapM fun i => do
    let c ← checkInt args (i + 1)
    checkThat (0 ≤ c && c.toInt ≤ 0x7FFFFFFF) (i + 1) "value out of range"
    return Lexeme.utf8Bytes c.toInt.toNat
  return [.str (ByteArray.mk pieces.flatten.toArray)]

/-- How many characters start between two positions (counted from zero), or the first position that
starts none. -/
def countCodes (s : List UInt8) (stop : Int) : (fuel : Nat) → (pos : Nat) → (n : Nat) →
    Except Nat Nat
  | 0, _, n => .ok n
  | fuel + 1, pos, n =>
    if (pos : Int) ≤ stop then
      match decodeCode? (s.drop pos) with
      | some (_, size) => countCodes s stop fuel (pos + size) (n + 1)
      | none => .error pos
    else .ok n

/-- The number of characters in a text. -/
def lengthInCodes (args : List Value) : Except Fault (List Value) := do
  let s ← checkText args 1
  let start := relative (← optInt args 2 1).toInt s.size
  let stop := relative (← optInt args 3 (-1)).toInt s.size
  checkThat (1 ≤ start && start - 1 ≤ s.size) 2 "initial position out of bounds"
  checkThat (stop - 1 < s.size) 3 "final position out of bounds"
  match countCodes s.toList (stop - 1) (s.size + 1) (start - 1).toNat 0 with
  | .ok n => return [.int (Int64.ofNat n)]
  | .error pos => return [.nil, .int (Int64.ofNat (pos + 1))]

/-- The code points that start in a range of positions. -/
def codesFrom (s : List UInt8) (stop : Int) : (fuel : Nat) → (pos : Nat) → Except Fault (List Value)
  | 0, _ => .ok []
  | fuel + 1, pos =>
    if (pos : Int) < stop then
      match decodeCode? (s.drop pos) with
      | some (code, size) =>
        (codesFrom s stop fuel (pos + size)).map (.int (Int64.ofNat code) :: ·)
      | none => .error (.located "invalid UTF-8 code")
    else .ok []

/-- The code points of a piece of text. -/
def codePoints (args : List Value) : Except Fault (List Value) := do
  let s ← checkText args 1
  let i ← optInt args 2 1
  let start := relative i.toInt s.size
  let stop := relative (← optInt args 3 (Int64.ofInt start)).toInt s.size
  checkThat (1 ≤ start) 2 "out of bounds"
  checkThat (stop ≤ s.size) 3 "out of bounds"
  codesFrom s.toList stop (s.size + 1) (start - 1).toNat

/-- Whether a byte continues a character. -/
def continues (s : ByteArray) (pos : Int) : Bool :=
  0 ≤ pos && pos < s.size && (s.data.getD pos.toNat 0 &&& 0xC0) == 0x80

/-- Moves back over characters. -/
def backward (s : ByteArray) : (fuel : Nat) → (n pos : Int) → Int × Int
  | 0, n, pos => (n, pos)
  | fuel + 1, n, pos =>
    if n < 0 && 0 < pos then
      if continues s (pos - 1) then backward s fuel n (pos - 1)
      else backward s fuel (n + 1) (pos - 1)
    else (n, pos)

/-- Moves on over characters. -/
def forward (s : ByteArray) : (fuel : Nat) → (n pos : Int) → Int × Int
  | 0, n, pos => (n, pos)
  | fuel + 1, n, pos =>
    if 0 < n && pos < s.size then
      if continues s (pos + 1) then forward s fuel n (pos + 1) else forward s fuel (n - 1) (pos + 1)
    else (n, pos)

/-- The start of the character that holds a position. -/
def startOf (s : ByteArray) : (fuel : Nat) → (pos : Int) → Int
  | 0, pos => pos
  | fuel + 1, pos => if 0 < pos && continues s pos then startOf s fuel (pos - 1) else pos

/-- The position of the `n`-th character from a position on. -/
def offset (args : List Value) : Except Fault (List Value) := do
  let s ← checkText args 1
  let n := (← checkInt args 2).toInt
  let default : Int := if 0 ≤ n then 1 else s.size + 1
  let pos := relative (← optInt args 3 (Int64.ofInt default)).toInt s.size - 1
  checkThat (0 ≤ pos && pos ≤ s.size) 3 "position out of bounds"
  if n = 0 then return [.int (Int64.ofInt (startOf s s.size pos + 1))]
  else if continues s pos then .error (.located "initial position is a continuation byte")
  else
    let (left, pos) :=
      if n < 0 then backward s (s.size + 1) n pos else forward s (2 * s.size + 2) (n - 1) pos
    return [if left = 0 then .int (Int64.ofInt (pos + 1)) else .nil]

end Conveyor.Lua.Library
