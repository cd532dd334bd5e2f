/-
Regular expressions as trees.

A character set is a tree of its own, so that set operations and case folding keep their meaning
instead of being flattened into ranges. What a set, an assertion or a repetition accepts is said
here; how a text is searched is not.
-/
import Conveyor.Text.Classes

set_option autoImplicit false

namespace Conveyor.Regex

/-! ## Character sets -/

/-- A set of characters. -/
inductive CharSet where
  /-- The code points from `lo` to `hi`, and with `fold` their case variants. -/
  | range (lo hi : Nat) (fold : Bool)
  | word (unicode : Bool)
  | digit (unicode : Bool)
  | space (unicode : Bool)
  | none
  | not (s : CharSet)
  | union (a b : CharSet)
  | inter (a b : CharSet)
  | diff (a b : CharSet)
  | symDiff (a b : CharSet)

namespace CharSet

/-- The white space of the ASCII classes. -/
def isAsciiSpace (c : Char) : Bool := c == ' ' || (9 ≤ c.toNat && c.toNat ≤ 13)

/-- Membership. -/
def has : CharSet → Char → Bool
  | range lo hi fold, c =>
    (lo ≤ c.toNat && c.toNat ≤ hi) ||
      (fold && (Text.caseVariants c).any fun d => lo ≤ d.toNat && d.toNat ≤ hi)
  | word true, c => Text.isWord c
  | word false, c => c.isAlphanum || c == '_'
  | digit true, c => Text.isDecimal c
  | digit false, c => c.isDigit
  | space true, c => Text.isBlank c
  | space false, c => isAsciiSpace c
  | none, _ => false
  | not s, c => !s.has c
  | union a b, c => a.has c || b.has c
  | inter a b, c => a.has c && b.has c
  | diff a b, c => a.has c && !b.has c
  | symDiff a b, c => a.has c != b.has c

/-- A single character. -/
def single (c : Char) (fold : Bool) : CharSet := range c.toNat c.toNat fold

end CharSet

/-! ## Expressions -/

/-- A condition on a position that consumes nothing. -/
inductive Assertion where
  | textStart
  | textEnd
  | lineStart (crlf : Bool)
  | lineEnd (crlf : Bool)
  | wordBoundary (unicode : Bool)
  | notWordBoundary (unicode : Bool)
  | wordStart (unicode : Bool)
  | wordEnd (unicode : Bool)
  | wordStartHalf (unicode : Bool)
  | wordEndHalf (unicode : Bool)
  deriving DecidableEq

/-- A regular expression. -/
inductive Tree where
  | empty
  | set (s : CharSet)
  | assert (a : Assertion)
  | group (index : Nat) (t : Tree)
  | cat (a b : Tree)
  | alt (a b : Tree)
  /-- Between `least` and `most` times; a greedy repetition prefers more. -/
  | rep (t : Tree) (least : Nat) (most : Option Nat) (greedy : Bool)

namespace Tree

/-- A tree that can match nothing at all of the text. -/
def canBeEmpty : Tree → Bool
  | empty | assert _ => true
  | set _ => false
  | group _ t => t.canBeEmpty
  | cat a b => a.canBeEmpty && b.canBeEmpty
  | alt a b => a.canBeEmpty || b.canBeEmpty
  | rep t least _ _ => least == 0 || t.canBeEmpty

/-- How many instructions a tree needs, about. -/
def size : Tree → Nat
  | empty => 0
  | set _ | assert _ => 1
  | group _ t => t.size + 2
  | cat a b => a.size + b.size
  | alt a b => a.size + b.size + 1
  | rep t least most _ => (t.size + 1) * (max (least + 1) (most.getD 0))

end Tree

end Conveyor.Regex
