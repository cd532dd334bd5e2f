/-
Binding names in scripts.

Scripts write the names of their bindings with a `$`, which the language does not allow in a name.
So `$name` stands for a name that begins with two underscores, and `$(` for a call of the function
that finds the output of a node. Strings and comments are left alone. Every other character is
copied in order, so lines stay what they are.
-/

set_option autoImplicit false

namespace Conveyor.Script

/-! ## Strings and comments -/

/-- The length of the rest of a quoted string; it ends at its quote or at the end of the line
(`skip_short_string`). -/
def quotedLength (quote : Char) : List Char → Nat
  | [] => 0
  | '\\' :: _ :: cs => quotedLength quote cs + 2
  | c :: cs => if c = '\n' || c = quote then 1 else quotedLength quote cs + 1

/-- The level of the long bracket that opens a text: how many equal signs stand in it
(`long_bracket`). -/
def bracketLevel? : List Char → Option Nat
  | '[' :: cs =>
    let level := (cs.takeWhile (· = '=')).length
    if cs[level]? = some '[' then some level else none
  | _ => none

/-- Whether a long bracket of a level is closed here. -/
def closesBracket (level : Nat) : List Char → Bool
  | ']' :: cs => (cs.take level).all (· = '=') && cs[level]? = some ']'
  | _ => false

/-- The length of a text up to the end of the closing bracket of a level, or to its own end
(`skip_long_bracket`). -/
def longLength (level : Nat) : List Char → Nat
  | [] => 0
  | c :: cs => if closesBracket level (c :: cs) then level + 2 else longLength level cs + 1

/-- The length of a long bracket of a level that opens a text. -/
def bracketLength (level : Nat) (cs : List Char) : Nat :=
  level + 2 + longLength level (cs.drop (level + 2))

/-- The length of a comment behind its two dashes. -/
def commentLength (cs : List Char) : Nat :=
  match bracketLevel? cs with
  | some level => bracketLength level cs
  | none => (cs.takeWhile (· ≠ '\n')).length

/-- The length of the string or comment that opens a text, zero if there is none. -/
def literalLength : List Char → Nat
  | '"' :: cs => quotedLength '"' cs + 1
  | '\'' :: cs => quotedLength '\'' cs + 1
  | '-' :: '-' :: cs => commentLength cs + 2
  | '[' :: cs =>
    match bracketLevel? ('[' :: cs) with
    | some level => bracketLength level ('[' :: cs)
    | none => 0
  | _ => 0

/-! ## Rewriting -/

/-- An ASCII letter or an underscore. -/
def startsName (c : Char) : Bool := c.isAlpha || c = '_'

/-- What stands for a `$` that is followed by a text. -/
def bindingMark : List Char → List Char
  | '(' :: _ => ['_', '_', 'n', 'o', 'd', 'e']
  | c :: _ => if startsName c then ['_', '_'] else ['$']
  | [] => ['$']

/-- A script with its binding names rewritten (`rewrite_bindings`). -/
def rewrite : List Char → List Char
  | [] => []
  | c :: cs =>
    match literalLength (c :: cs) with
    | n + 1 => c :: cs.take n ++ rewrite (cs.drop n)
    | 0 => if c = '$' then bindingMark cs ++ rewrite cs else c :: rewrite cs
termination_by cs => cs.length

end Conveyor.Script
