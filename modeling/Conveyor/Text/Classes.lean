/-
Character classes of patterns: word characters, digits and case variants.
-/
import Conveyor.Text.Blank
import Conveyor.Text.LowerCase
import Conveyor.Text.WordTables

set_option autoImplicit false

namespace Conveyor.Text

/-- A character of a word. -/
def isWord (c : Char) : Bool :=
  if c.toNat < 128 then c.isAlphanum || c == '_' else inRanges wordRanges c.toNat

/-- A decimal digit of any script. -/
def isDecimal (c : Char) : Bool :=
  if c.toNat < 128 then c.isDigit else inRanges digitRanges c.toNat

/-- The characters that a run maps to a code point. -/
def CaseRun.sources (n : Nat) (r : CaseRun) : List Nat :=
  let m := ((n : Int) - r.offset).toNat
  if r.has m && (m : Int) + r.offset == n then [m] else []

/-- All characters that differ from a character in case only, itself included. -/
def caseVariants (c : Char) : List Char :=
  let f := (foldCase c).toNat
  (f :: foldRuns.flatMap (·.sources f)).map Char.ofNat

end Conveyor.Text
