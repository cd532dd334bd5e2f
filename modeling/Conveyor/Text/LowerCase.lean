/-
Small letters of a text.

Every character is mapped by itself, with two exceptions: a capital I with a dot becomes a small i
and a combining dot, and a capital sigma at the end of a word takes its final form. A sigma ends a
word when, characters that casing ignores skipped, a cased character stands before it and none
stands after it.
-/
import Conveyor.Text.CaseTables

set_option autoImplicit false

namespace Conveyor.Text

/-! ## Looking characters up -/

/-- The image of a code point under a list of runs; what no run lists is mapped to itself. -/
def mapByRuns (runs : List CaseRun) (n : Nat) : Nat :=
  match runs.find? (·.has n) with
  | some r => ((n : Int) + r.offset).toNat
  | none => n

/-- Whether some range holds a code point. -/
def inRanges (ranges : List (Nat × Nat)) (n : Nat) : Bool :=
  ranges.any fun r => r.1 ≤ n && n ≤ r.2

/-- The small letter of one character. -/
def lowerChar (c : Char) : Char :=
  if c.toNat < 128 then c.toLower else Char.ofNat (mapByRuns lowerRuns c.toNat)

/-- The representative of the case variants of a character. -/
def foldCase (c : Char) : Char :=
  if c.toNat < 128 then c.toLower else Char.ofNat (mapByRuns foldRuns c.toNat)

/-- The property Cased. -/
def isCased (c : Char) : Bool := inRanges casedRanges c.toNat

/-- The property Case_Ignorable. -/
def isCaseIgnorable (c : Char) : Bool := inRanges ignorableRanges c.toNat

/-! ## Whole texts -/

/-- The first character that casing does not ignore is cased. -/
def startsCased (cs : List Char) : Bool :=
  match cs.dropWhile isCaseIgnorable with
  | c :: _ => isCased c
  | [] => false

/-- Small letters of the rest of a text; `before` holds what precedes it, nearest first. -/
def lowerFrom (before : List Char) : List Char → List Char
  | [] => []
  | c :: cs =>
    let image :=
      if c = 'Σ' then [if startsCased before && !startsCased cs then 'ς' else 'σ']
      else if c = 'İ' then ['i', '\u0307']
      else [lowerChar c]
    image ++ lowerFrom (c :: before) cs

/-- A string in small letters. -/
def lowerCase (s : String) : String := String.ofList (lowerFrom [] s.toList)

end Conveyor.Text
