/-
Reading regular expressions.

The notation knows literals, sets with set operations, the classes `\d \s \w`, anchors and word
boundaries, capturing and named groups, greedy and lazy repetitions, and the flags `i m s R U u x`,
which hold to the end of the group they are set in. Look-around and back-references are not part of
it, so such a pattern is invalid; the parser answers `none` for every invalid pattern.
-/
import Conveyor.Regex.Tree
import Conveyor.Json.Parser

set_option autoImplicit false

namespace Conveyor.Regex

/-- What the flags of a pattern say. -/
structure Flags where
  ignoreCase : Bool := false
  multiLine : Bool := false
  dotAll : Bool := false
  crlf : Bool := false
  swapGreed : Bool := false
  unicode : Bool := true
  extended : Bool := false

namespace Parser

/-- What was read, and the text after it. -/
abbrev Step (α : Type) := Option (α × List Char)

/-! ## Blanks of extended patterns -/

/-- In an extended pattern, skips blanks and comments. -/
def skipBlank (extended : Bool) : List Char → List Char
  | [] => []
  | c :: cs =>
    if !extended then c :: cs
    else if Text.isBlank c then skipBlank extended cs
    else if c == '#' then skipComment cs
    else c :: cs
where
  skipComment : List Char → List Char
    | [] => []
    | c :: cs => if c == '\n' then skipBlank true cs else skipComment cs

/-! ## Escapes -/

/-- Characters with a meaning of their own. -/
def isMeta (c : Char) : Bool := "\\.+*?()|[]\x7b\x7d^$#&-~".toList.contains c

/-- Characters a backslash may stand before without giving them a meaning. -/
def isEscapable (c : Char) : Bool :=
  isMeta c || (c.toNat < 128 && !c.isAlphanum && c != '<' && c != '>')

/-- The character of a code point, if it is one. -/
def charOfCode? (n : Nat) : Option Char := if n.isValidChar then some (Char.ofNat n) else none

/-- The number that hexadecimal digits spell. -/
def hexNumber? (ds : List Char) : Option Nat :=
  if ds.isEmpty then none
  else ds.foldl (fun acc d => do
    let n ← acc
    let v ← Json.Parser.hexValue d
    if n > 0xFFFFFFF then none else some (n * 16 + v)) (some 0)

/-- A character given by a fixed number of hexadecimal digits or by digits in braces. -/
def hexEscape (digits : Nat) (cs : List Char) : Option (Char × List Char) :=
  match cs with
  | '\x7b' :: rest =>
    match rest.span (· != '\x7d') with
    | (ds, _ :: rest) => (hexNumber? ds).bind charOfCode? |>.map (·, rest)
    | (_, []) => none
  | cs =>
    if (cs.take digits).length < digits then none
    else (hexNumber? (cs.take digits)).bind charOfCode? |>.map (·, cs.drop digits)

/-- What an escape stands for. -/
inductive Escaped where
  | literal (c : Char)
  | set (s : CharSet)
  | assert (a : Assertion)

/-- The class named by a letter. -/
def classOf (u : Bool) : Char → Option CharSet
  | 'd' => some (.digit u)
  | 'D' => some (.not (.digit u))
  | 's' => some (.space u)
  | 'S' => some (.not (.space u))
  | 'w' => some (.word u)
  | 'W' => some (.not (.word u))
  | _ => none

/-- A word boundary after `\b`, whose kind may be named in braces. -/
def boundary (u : Bool) (cs : List Char) : Assertion × List Char :=
  match cs with
  | '\x7b' :: rest =>
    match rest.span (· != '\x7d') with
    | (name, _ :: rest') =>
      match String.ofList name with
      | "start" => (.wordStart u, rest')
      | "end" => (.wordEnd u, rest')
      | "start-half" => (.wordStartHalf u, rest')
      | "end-half" => (.wordEndHalf u, rest')
      | _ => (.wordBoundary u, cs)
    | (_, []) => (.wordBoundary u, cs)
  | cs => (.wordBoundary u, cs)

/-- What stands after a backslash. -/
def escape (f : Flags) : List Char → Step Escaped
  | [] => none
  | 'x' :: cs => (hexEscape 2 cs).map fun (c, rest) => (.literal c, rest)
  | 'u' :: cs => (hexEscape 4 cs).map fun (c, rest) => (.literal c, rest)
  | 'U' :: cs => (hexEscape 8 cs).map fun (c, rest) => (.literal c, rest)
  | 'a' :: cs => some (.literal '\x07', cs)
  | 'f' :: cs => some (.literal '\x0c', cs)
  | 't' :: cs => some (.literal '\t', cs)
  | 'n' :: cs => some (.literal '\n', cs)
  | 'r' :: cs => some (.literal '\r', cs)
  | 'v' :: cs => some (.literal '\x0b', cs)
  | 'A' :: cs => some (.assert .textStart, cs)
  | 'z' :: cs => some (.assert .textEnd, cs)
  | 'B' :: cs => some (.assert (.notWordBoundary f.unicode), cs)
  | '<' :: cs => some (.assert (.wordStart f.unicode), cs)
  | '>' :: cs => some (.assert (.wordEnd f.unicode), cs)
  | 'b' :: cs => let (a, rest) := boundary f.unicode cs; some (.assert a, rest)
  | c :: cs =>
    match classOf f.unicode c with
    | some s => some (.set s, cs)
    | none => if isEscapable c then some (.literal c, cs) else none

/-! ## Sets in brackets -/

/-- A range of characters. -/
def rangeOf (f : Flags) (lo hi : Char) : CharSet := .range lo.toNat hi.toNat f.ignoreCase

/-- A union of ranges. -/
def rangesOf (f : Flags) (rs : List (Char × Char)) : CharSet :=
  rs.foldr (fun r s => .union (rangeOf f r.1 r.2) s) .none

/-- The ASCII class of a name. -/
def asciiClass (f : Flags) : String → Option CharSet
  | "alnum" => some (rangesOf f [('0', '9'), ('A', 'Z'), ('a', 'z')])
  | "alpha" => some (rangesOf f [('A', 'Z'), ('a', 'z')])
  | "ascii" => some (rangesOf f [('\x00', '\x7f')])
  | "blank" => some (rangesOf f [('\t', '\t'), (' ', ' ')])
  | "cntrl" => some (rangesOf f [('\x00', '\x1f'), ('\x7f', '\x7f')])
  | "digit" => some (rangesOf f [('0', '9')])
  | "graph" => some (rangesOf f [('!', '~')])
  | "lower" => some (rangesOf f [('a', 'z')])
  | "print" => some (rangesOf f [(' ', '~')])
  | "punct" => some (rangesOf f [('!', '/'), (':', '@'), ('[', '\x60'), ('\x7b', '~')])
  | "space" => some (rangesOf f [('\t', '\r'), (' ', ' ')])
  | "upper" => some (rangesOf f [('A', 'Z')])
  | "word" => some (rangesOf f [('0', '9'), ('A', 'Z'), ('_', '_'), ('a', 'z')])
  | "xdigit" => some (rangesOf f [('0', '9'), ('A', 'F'), ('a', 'f')])
  | _ => none

/-- A named ASCII class after its opening bracket, such as `:alpha:]`. -/
def namedClass (f : Flags) : List Char → Step CharSet
  | ':' :: cs =>
    let (negated, cs) := match cs with
      | '^' :: cs => (true, cs)
      | cs => (false, cs)
    match cs.span (· != ':') with
    | (name, ':' :: ']' :: rest) =>
      (asciiClass f (String.ofList name)).map fun s => (if negated then .not s else s, rest)
    | _ => none
  | _ => none

/-- One member of a set: a character or a class. -/
def setItem (f : Flags) : List Char → Step Escaped
  | [] => none
  | '\\' :: cs =>
    match escape f cs with
    | some (.assert _, _) => none
    | r => r
  | c :: cs => some (.literal c, cs)

/-- A member of a set or a range of characters. -/
def setRange (f : Flags) (cs : List Char) : Step CharSet :=
  match setItem f cs with
  | none => none
  | some (first, rest) =>
    let rest := skipBlank f.extended rest
    let alone : CharSet := match first with
      | .literal c => .single c f.ignoreCase
      | .set s => s
      | .assert _ => .none
    match rest with
    | [] => none
    | '-' :: after =>
      match skipBlank f.extended after with
      | [] => none
      | ']' :: _ => some (alone, rest)
      | '-' :: _ => some (alone, rest)
      | after =>
        match first, setItem f after with
        | .literal lo, some (.literal hi, rest) =>
          if lo.toNat ≤ hi.toNat then some (rangeOf f lo hi, rest) else none
        | _, _ => none
    | rest => some (alone, rest)

/-- A set operation waiting for its right side. -/
inductive SetOp where
  | inter
  | diff
  | symDiff

/-- The result of an operation. -/
def SetOp.apply : SetOp → CharSet → CharSet → CharSet
  | .inter, a, b => .inter a b
  | .diff, a, b => .diff a b
  | .symDiff, a, b => .symDiff a b

/-- Closes the union in progress: the pending operation, if any, gets it as its right side. -/
def closeUnion (pending : Option (CharSet × SetOp)) (acc : CharSet) : CharSet :=
  match pending with
  | none => acc
  | some (left, op) => op.apply left acc

/-- The minus signs at the start of a set, which stand for themselves. -/
def leadingDashes (f : Flags) (acc : CharSet) : List Char → CharSet × List Char
  | '-' :: cs => leadingDashes f (.union acc (.single '-' f.ignoreCase)) cs
  | cs => (acc, cs)

mutual

/-- A set after its opening bracket. -/
def bracket (f : Flags) : Nat → List Char → Step CharSet
  | 0, _ => none
  | fuel + 1, cs =>
    let cs := skipBlank f.extended cs
    let (negated, cs) := match cs with
      | '^' :: cs => (true, skipBlank f.extended cs)
      | cs => (false, cs)
    let (start, cs') := leadingDashes f .none cs
    let (start, cs') :=
      if cs'.length = cs.length then
        match cs' with
        | ']' :: rest => (CharSet.union start (.single ']' f.ignoreCase), rest)
        | cs' => (start, cs')
      else (start, cs')
    (bracketItems f fuel none start cs').map fun (s, rest) => (if negated then .not s else s, rest)

/-- The members of a set up to its closing bracket. -/
def bracketItems (f : Flags) : Nat → Option (CharSet × SetOp) → CharSet → List Char → Step CharSet
  | 0, _, _, _ => none
  | fuel + 1, pending, acc, cs =>
    match skipBlank f.extended cs with
    | [] => none
    | '[' :: rest =>
      match namedClass f rest with
      | some (s, rest) => bracketItems f fuel pending (.union acc s) rest
      | none =>
        match bracket f fuel rest with
        | some (s, rest) => bracketItems f fuel pending (.union acc s) rest
        | none => none
    | ']' :: rest => some (closeUnion pending acc, rest)
    | '&' :: '&' :: rest =>
      bracketItems f fuel (some (closeUnion pending acc, .inter)) .none rest
    | '-' :: '-' :: rest =>
      bracketItems f fuel (some (closeUnion pending acc, .diff)) .none rest
    | '~' :: '~' :: rest =>
      bracketItems f fuel (some (closeUnion pending acc, .symDiff)) .none rest
    | cs =>
      match setRange f cs with
      | some (s, rest) => bracketItems f fuel pending (.union acc s) rest
      | none => none

end

/-! ## Repetitions -/

/-- A decimal count, blanks around it allowed. -/
def count (cs : List Char) : Option Nat × List Char :=
  let cs := cs.dropWhile Text.isBlank
  let (ds, rest) := Decimal.spanDigits cs
  let rest := rest.dropWhile Text.isBlank
  let n := Decimal.natOfDigits 0 ds
  (if ds.isEmpty || n ≥ 2 ^ (32 : Nat) then none else some n, rest)

/-- The bounds of a counted repetition after its opening brace. -/
def bounds (cs : List Char) : Option ((Nat × Option Nat) × List Char) :=
  match count cs with
  | (some least, '\x7d' :: rest) => some ((least, some least), rest)
  | (some least, ',' :: rest) =>
    match rest.dropWhile Text.isBlank with
    | '\x7d' :: rest => some ((least, none), rest)
    | rest =>
      match count rest with
      | (some most, '\x7d' :: rest) =>
        if least ≤ most then some ((least, some most), rest) else none
      | _ => none
  | _ => none

/-- A repetition operator at the head of a text; `some none` when there is none. -/
def repetition (f : Flags) (cs : List Char) :
    Option (Option ((Nat × Option Nat) × Bool) × List Char) :=
  let lazyMark : List Char → Bool × List Char := fun cs =>
    match skipBlank f.extended cs with
    | '?' :: rest => (f.swapGreed, rest)
    | _ => (!f.swapGreed, cs)
  match skipBlank f.extended cs with
  | '*' :: rest => let (g, rest) := lazyMark rest; some (some ((0, none), g), rest)
  | '+' :: rest => let (g, rest) := lazyMark rest; some (some ((1, none), g), rest)
  | '?' :: rest => let (g, rest) := lazyMark rest; some (some ((0, some 1), g), rest)
  | '\x7b' :: rest =>
    match bounds rest with
    | some (b, rest) => let (g, rest) := lazyMark rest; some (some (b, g), rest)
    | none => none
  | _ => some (none, cs)

/-- The repetitions that follow a tree, one around the other. -/
def repeated (f : Flags) : Nat → Tree → List Char → Step Tree
  | 0, _, _ => none
  | fuel + 1, t, cs =>
    match repetition f cs with
    | none => none
    | some (none, _) => some (t, cs)
    | some (some ((least, most), greedy), rest) => repeated f fuel (.rep t least most greedy) rest

/-! ## Groups -/

/-- Sets or clears one flag. -/
def setFlag (f : Flags) (on : Bool) : Char → Option Flags
  | 'i' => some { f with ignoreCase := on }
  | 'm' => some { f with multiLine := on }
  | 's' => some { f with dotAll := on }
  | 'R' => some { f with crlf := on }
  | 'U' => some { f with swapGreed := on }
  | 'u' => some { f with unicode := on }
  | 'x' => some { f with extended := on }
  | _ => none

/-- Flag letters up to `)` or `:`; each letter and the minus sign may stand once. -/
def flagLetters (f : Flags) (on : Bool) (seen : List Char) : List Char → Step Flags
  | [] => none
  | ')' :: cs => if seen.head? == some '-' then none else some (f, ')' :: cs)
  | ':' :: cs => if seen.head? == some '-' then none else some (f, ':' :: cs)
  | '-' :: cs => if seen.contains '-' then none else flagLetters f false ('-' :: seen) cs
  | c :: cs =>
    if seen.contains c then none
    else
      match setFlag f on c with
      | some f => flagLetters f on (c :: seen) cs
      | none => none

/-- A character of a group's name. -/
def isNameChar (first : Bool) (c : Char) : Bool :=
  c == '_' || (Text.isWord c && !Text.isDecimal c) ||
    (!first && (Text.isDecimal c || c == '.' || c == '[' || c == ']'))

/-- The name of a group up to `>`. -/
def groupName (cs : List Char) : Step String :=
  match cs.span (· != '>') with
  | (c :: name, '>' :: rest) =>
    if isNameChar true c && name.all (isNameChar false) then some (String.ofList (c :: name), rest)
    else none
  | _ => none

/-- The groups met so far: how many there are, and their names. -/
structure Groups where
  count : Nat
  names : List String

/-- The next group, under a name that no earlier one has. -/
def Groups.next (g : Groups) (name : Option String) : Option (Nat × Groups) :=
  match name with
  | none => some (g.count + 1, ⟨g.count + 1, g.names⟩)
  | some n => if g.names.contains n then none else some (g.count + 1, ⟨g.count + 1, n :: g.names⟩)

/-! ## Expressions -/

/-- What reading an expression yields: the tree, the text after it and the groups met. -/
abbrev Outcome := Option (Tree × List Char × Groups)

/-- A literal character. -/
def literal (f : Flags) (c : Char) : Tree := .set (.single c f.ignoreCase)

/-- The dot. -/
def dot (f : Flags) : Tree :=
  if f.dotAll then .set (.not .none)
  else if f.crlf then .set (.not (.union (.single '\n' false) (.single '\r' false)))
  else .set (.not (.single '\n' false))

mutual

/-- Alternatives, up to a closing parenthesis or the end. -/
def alternatives : Nat → Flags → Groups → List Char → Outcome
  | 0, _, _, _ => none
  | fuel + 1, f, g, cs => alternativesFrom fuel f g none .empty cs

/-- The rest of the alternatives: `left` are those already read, `acc` is the branch in progress. -/
def alternativesFrom : Nat → Flags → Groups → Option Tree → Tree → List Char → Outcome
  | 0, _, _, _, _, _ => none
  | fuel + 1, f, g, left, acc, cs =>
    let joined := match left with
      | none => acc
      | some l => .alt l acc
    match skipBlank f.extended cs with
    | [] => some (joined, [], g)
    | ')' :: rest => some (joined, ')' :: rest, g)
    | '|' :: rest => alternativesFrom fuel f g (some joined) .empty rest
    | '(' :: '?' :: rest =>
      match rest with
      | 'P' :: '<' :: rest => named fuel f g left acc rest
      | '<' :: c :: rest =>
        if c == '=' || c == '!' then none else named fuel f g left acc (c :: rest)
      | rest =>
        match flagLetters f true [] rest with
        | some (f', ')' :: rest') =>
          if rest.head? == some ')' then none
          else
            match repetition f' rest' with
            | some (none, _) => alternativesFrom fuel f' g left acc rest'
            | _ => none
        | some (f', _ :: rest') =>
          match alternatives fuel f' g rest' with
          | some (t, ')' :: rest, g) => continueWith fuel f g left acc t rest
          | _ => none
        | _ => none
    | '(' :: rest =>
      match g.next none with
      | some (i, g) =>
        match alternatives fuel f g rest with
        | some (t, ')' :: rest, g) => continueWith fuel f g left acc (.group i t) rest
        | _ => none
      | none => none
    | '[' :: rest =>
      match bracket f (rest.length + 1) rest with
      | some (s, rest) => continueWith fuel f g left acc (.set s) rest
      | none => none
    | '.' :: rest => if f.unicode then continueWith fuel f g left acc (dot f) rest else none
    | '^' :: rest =>
      let a := if f.multiLine then Assertion.lineStart f.crlf else .textStart
      continueWith fuel f g left acc (.assert a) rest
    | '$' :: rest =>
      let a := if f.multiLine then Assertion.lineEnd f.crlf else .textEnd
      continueWith fuel f g left acc (.assert a) rest
    | '\\' :: rest =>
      match escape f rest with
      | some (.literal c, rest) => continueWith fuel f g left acc (literal f c) rest
      | some (.set s, rest) => continueWith fuel f g left acc (.set s) rest
      | some (.assert a, rest) => continueWith fuel f g left acc (.assert a) rest
      | none => none
    | c :: rest =>
      if c == '*' || c == '+' || c == '?' || c == '\x7b' then none
      else continueWith fuel f g left acc (literal f c) rest

/-- A named group after the bracket that opens its name. -/
def named : Nat → Flags → Groups → Option Tree → Tree → List Char → Outcome
  | 0, _, _, _, _, _ => none
  | fuel + 1, f, g, left, acc, cs =>
    match groupName cs with
    | some (name, rest) =>
      match g.next (some name) with
      | some (i, g) =>
        match alternatives fuel f g rest with
        | some (t, ')' :: rest, g) => continueWith fuel f g left acc (.group i t) rest
        | _ => none
      | none => none
    | none => none

/-- Appends a tree, with the repetitions that follow it, to the branch in progress. -/
def continueWith : Nat → Flags → Groups → Option Tree → Tree → Tree → List Char → Outcome
  | 0, _, _, _, _, _, _ => none
  | fuel + 1, f, g, left, acc, t, cs =>
    match repeated f (cs.length + 1) t cs with
    | some (t, rest) =>
      let joined := match acc with
        | .empty => t
        | acc => .cat acc t
      alternativesFrom fuel f g left joined rest
    | none => none

end

end Parser

/-- A pattern that was understood: its tree and how many groups it captures. -/
structure Pattern where
  tree : Tree
  groups : Nat

/-- The most instructions a pattern may need. -/
def sizeLimit : Nat := 200000

/-- The first line of what is said of a pattern that cannot be read. The lines after it show the
place in the pattern; they are not told here. -/
def refusal : String := "regex parse error:"

/-- Reads a pattern under the given flags. -/
def parse? (f : Flags) (pattern : String) : Option Pattern :=
  let cs := pattern.toList
  match Parser.alternatives (3 * cs.length + 4) f ⟨0, []⟩ cs with
  | some (t, [], g) => if t.size ≤ sizeLimit then some ⟨t, g.count⟩ else none
  | _ => none

end Conveyor.Regex
