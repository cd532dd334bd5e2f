/-
Blank characters and trimming.

A blank is a character with the Unicode property White_Space. Trimming removes blanks from both ends
of a text and nothing else.
-/

set_option autoImplicit false

namespace Conveyor.Text

/-- The character has the Unicode property White_Space. -/
def isBlank (c : Char) : Bool :=
  let n := c.toNat
  (9 ≤ n && n ≤ 13) || n == 0x20 || n == 0x85 || n == 0xA0 || n == 0x1680 ||
    (0x2000 ≤ n && n ≤ 0x200A) || n == 0x2028 || n == 0x2029 || n == 0x202F || n == 0x205F ||
    n == 0x3000

/-! ## Trimming lists of characters -/

/-- Without the blanks in front. -/
def trimStart (cs : List Char) : List Char := cs.dropWhile isBlank

/-- Without the blanks at the end. -/
def trimEnd (cs : List Char) : List Char := (cs.reverse.dropWhile isBlank).reverse

/-- Without the blanks at either end. -/
def trim (cs : List Char) : List Char := trimEnd (trimStart cs)

/-! ## Trimming strings -/

/-- A string without the blanks at either end. -/
def trimString (s : String) : String := String.ofList (trim s.toList)

end Conveyor.Text
