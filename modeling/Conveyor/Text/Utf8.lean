/-
Bytes as text.

Bytes that are well-formed UTF-8 are the text they encode. In all others, each longest beginning of
an encoded character that does not go on as it must is shown as one replacement character.
-/

set_option autoImplicit false

namespace Conveyor.Text

/-- The character shown for bytes that encode nothing. -/
def replacement : Char := Char.ofNat 0xFFFD

/-- How many bytes follow a first byte, and the bounds of the second one; `none` if no character
starts so. -/
def sequenceOf (b : UInt8) : Option (Nat × UInt8 × UInt8) :=
  if b < 0x80 then some (0, 0, 0)
  else if 0xC2 ≤ b && b ≤ 0xDF then some (1, 0x80, 0xBF)
  else if b == 0xE0 then some (2, 0xA0, 0xBF)
  else if b == 0xED then some (2, 0x80, 0x9F)
  else if 0xE1 ≤ b && b ≤ 0xEF then some (2, 0x80, 0xBF)
  else if b == 0xF0 then some (3, 0x90, 0xBF)
  else if 0xF1 ≤ b && b ≤ 0xF3 then some (3, 0x80, 0xBF)
  else if b == 0xF4 then some (3, 0x80, 0x8F)
  else none

/-- The continuation bytes at the head of a list, at most `n`, the first one within bounds. -/
def takeContinuation : (n : Nat) → (lo hi : UInt8) → List UInt8 → List UInt8
  | n + 1, lo, hi, b :: bs =>
    if lo ≤ b && b ≤ hi then b :: takeContinuation n 0x80 0xBF bs else []
  | _, _, _, _ => []

/-- The code point of a first byte with `n` bytes after it. -/
def codePoint (b : UInt8) (n : Nat) (tail : List UInt8) : Nat :=
  let head := if n = 0 then b.toNat else b.toNat % (1 <<< (6 - n))
  tail.foldl (fun acc c => acc * 64 + c.toNat % 64) head

/-- The characters of bytes, with replacements. -/
def lossyChars : (fuel : Nat) → List UInt8 → List Char
  | fuel + 1, b :: bs =>
    match sequenceOf b with
    | none => replacement :: lossyChars fuel bs
    | some (n, lo, hi) =>
      let tail := takeContinuation n lo hi bs
      let c := if tail.length = n then Char.ofNat (codePoint b n tail) else replacement
      c :: lossyChars fuel (bs.drop tail.length)
  | _, _ => []

/-- The text of bytes, with replacements where they are not well formed. -/
def lossy (s : ByteArray) : String :=
  match String.fromUTF8? s with
  | some t => t
  | none => String.ofList (lossyChars (s.size + 1) s.toList)

end Conveyor.Text
