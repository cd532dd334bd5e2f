/-
Searching a text for a regular expression.

A tree is laid out as a program of small instructions in which every choice says which branch is
preferred. The search tries starting positions from left to right and, from each, the branches in
order of preference; an instruction that was already tried at a position is not tried there again,
since it failed before and would fail again. The first success is the leftmost match, and of those
at one position the preferred one.
-/
import Conveyor.Regex.Parser

set_option autoImplicit false

namespace Conveyor.Regex

/-! ## Programs -/

/-- An instruction; numbers are positions in the program. -/
inductive Instr where
  | read (s : CharSet) (next : Nat)
  /-- Goes on at `first`, and if that fails at `second`. -/
  | fork (first second : Nat)
  | save (slot next : Nat)
  | check (a : Assertion) (next : Nat)
  | done

/-- A program under construction. -/
abbrev Program := Array Instr

/-- Appends an instruction and answers where it stands. -/
def Program.emit (p : Program) (i : Instr) : Nat × Program := (p.size, p.push i)

/-- A fork that prefers the body when greedy, the exit otherwise. -/
def forkFor (greedy : Bool) (body exit : Nat) : Instr :=
  if greedy then .fork body exit else .fork exit body

/-- Repeats a layout `n` times, each before the last. -/
def layoutTimes (layout : Nat → Program → Nat × Program) : Nat → Nat → Program → Nat × Program
  | 0, next, p => (next, p)
  | n + 1, next, p =>
    let (start, p) := layoutTimes layout n next p
    layout start p

/-- Up to `n` times, each optional inside the one before. -/
def layoutOptional (layout : Nat → Program → Nat × Program) (greedy : Bool) (exit : Nat) :
    Nat → Program → Nat × Program
  | 0, p => (exit, p)
  | n + 1, p =>
    let (rest, p) := layoutOptional layout greedy exit n p
    let (body, p) := layout rest p
    p.emit (forkFor greedy body exit)

/-- Once or more. -/
def layoutPlus (layout : Nat → Program → Nat × Program) (greedy : Bool) (exit : Nat)
    (p : Program) : Nat × Program :=
  let (loop, p) := p.emit .done
  let (body, p) := layout loop p
  (body, p.setIfInBounds loop (forkFor greedy body exit))

/-- Any number of times. A body that can match nothing is made optional around one or more times, so
that an empty round is tried last. -/
def layoutStar (layout : Nat → Program → Nat × Program) (canBeEmpty greedy : Bool) (exit : Nat)
    (p : Program) : Nat × Program :=
  if canBeEmpty then
    let (body, p) := layoutPlus layout greedy exit p
    p.emit (forkFor greedy body exit)
  else
    let (loop, p) := p.emit .done
    let (body, p) := layout loop p
    (loop, p.setIfInBounds loop (forkFor greedy body exit))

/-- Lays a tree out in front of `next` and answers where it starts. -/
def layout : Tree → Nat → Program → Nat × Program
  | .empty, next, p => (next, p)
  | .set s, next, p => p.emit (.read s next)
  | .assert a, next, p => p.emit (.check a next)
  | .group i t, next, p =>
    let (close, p) := p.emit (.save (2 * i + 1) next)
    let (body, p) := layout t close p
    p.emit (.save (2 * i) body)
  | .cat a b, next, p =>
    let (start, p) := layout b next p
    layout a start p
  | .alt a b, next, p =>
    let (second, p) := layout b next p
    let (first, p) := layout a next p
    p.emit (.fork first second)
  | .rep t least none greedy, next, p =>
    if least = 0 then layoutStar (layout t) t.canBeEmpty greedy next p
    else
      let (start, p) := layoutPlus (layout t) greedy next p
      layoutTimes (layout t) (least - 1) start p
  | .rep t least (some most) greedy, next, p =>
    let (start, p) := layoutOptional (layout t) greedy next (most - least) p
    layoutTimes (layout t) least start p

/-! ## Positions -/

/-- The text around a position. -/
structure Place where
  text : Array Char
  pos : Nat

/-- The character before the position. -/
def Place.before (p : Place) : Option Char := if p.pos = 0 then none else p.text[p.pos - 1]?

/-- The character at the position. -/
def Place.next (p : Place) : Option Char := p.text[p.pos]?

/-- A word character. -/
def isWordChar (unicode : Bool) (c : Char) : Bool := (CharSet.word unicode).has c

/-- Whether an assertion holds at a position. -/
def Assertion.holds (a : Assertion) (p : Place) : Bool :=
  let wordBefore (u : Bool) := p.before.any (isWordChar u)
  let wordAfter (u : Bool) := p.next.any (isWordChar u)
  match a with
  | .textStart => p.before.isNone
  | .textEnd => p.next.isNone
  | .lineStart false => p.before.all (· == '\n')
  | .lineEnd false => p.next.all (· == '\n')
  | .lineStart true =>
    match p.before with
    | none => true
    | some '\n' => true
    | some '\r' => p.next != some '\n'
    | some _ => false
  | .lineEnd true =>
    match p.next with
    | none => true
    | some '\r' => true
    | some '\n' => p.before != some '\r'
    | some _ => false
  | .wordBoundary u => wordBefore u != wordAfter u
  | .notWordBoundary u => wordBefore u == wordAfter u
  | .wordStart u => !wordBefore u && wordAfter u
  | .wordEnd u => wordBefore u && !wordAfter u
  | .wordStartHalf u => !wordBefore u
  | .wordEndHalf u => !wordAfter u

/-! ## The search -/

/-- A branch still to be tried: an instruction, a position and the group ends recorded so far. -/
structure Branch where
  instr : Nat
  pos : Nat
  slots : List (Nat × Nat)

/-- Tries branches, the first one first, until one succeeds; answers the end of the match and its
group ends, or the pairs of instruction and position that are known to fail. -/
def tryBranches (prog : Program) (text : Array Char) :
    Nat → Array Bool → List Branch → Except (Array Bool) (Nat × List (Nat × Nat))
  | 0, seen, _ => .error seen
  | _ + 1, seen, [] => .error seen
  | fuel + 1, seen, b :: rest =>
    let key := b.instr * (text.size + 1) + b.pos
    if seen.getD key true then tryBranches prog text fuel seen rest
    else
      let seen := seen.setIfInBounds key true
      match prog[b.instr]? with
      | none => tryBranches prog text fuel seen rest
      | some .done => .ok (b.pos, b.slots)
      | some (.read s next) =>
        match text[b.pos]? with
        | some c =>
          if s.has c then tryBranches prog text fuel seen (⟨next, b.pos + 1, b.slots⟩ :: rest)
          else tryBranches prog text fuel seen rest
        | none => tryBranches prog text fuel seen rest
      | some (.fork first second) =>
        tryBranches prog text fuel seen
          (⟨first, b.pos, b.slots⟩ :: ⟨second, b.pos, b.slots⟩ :: rest)
      | some (.save slot next) =>
        tryBranches prog text fuel seen (⟨next, b.pos, (slot, b.pos) :: b.slots⟩ :: rest)
      | some (.check a next) =>
        if a.holds ⟨text, b.pos⟩ then
          tryBranches prog text fuel seen (⟨next, b.pos, b.slots⟩ :: rest)
        else tryBranches prog text fuel seen rest

/-- A match: where it starts and ends, and the recorded group ends, latest first. -/
structure Found where
  start : Nat
  stop : Nat
  slots : List (Nat × Nat)

/-- Tries the starting positions from `pos` on, `n` of them. -/
def searchFrom (prog : Program) (start : Nat) (text : Array Char) :
    Nat → Nat → Array Bool → Option Found
  | 0, _, _ => none
  | n + 1, pos, seen =>
    match tryBranches prog text (3 * seen.size + 3) seen [⟨start, pos, []⟩] with
    | .ok (stop, slots) => some ⟨pos, stop, slots⟩
    | .error seen => searchFrom prog start text n (pos + 1) seen

/-- The leftmost match of a pattern in a text. -/
def Pattern.find? (p : Pattern) (text : Array Char) : Option Found :=
  let (exit, prog) := Program.emit #[] .done
  let (start, prog) := layout p.tree exit prog
  searchFrom prog start text (text.size + 1) 0
    (Array.replicate (prog.size * (text.size + 1)) false)

/-- Whether a pattern matches anywhere in a string. -/
def Pattern.isMatch (p : Pattern) (s : String) : Bool := (p.find? s.toList.toArray).isSome

/-- The part of a text from one position to another. -/
def slice (text : Array Char) (start stop : Nat) : String :=
  String.ofList (text.extract start stop).toList

/-- What the leftmost match captured: the whole match and, group by group, the part of the text a
group took last, if it took part. -/
def Pattern.captures? (p : Pattern) (s : String) : Option (String × List (Option String)) :=
  let text := s.toList.toArray
  (p.find? text).map fun m =>
    (slice text m.start m.stop,
      (List.range p.groups).map fun i => do
        let a ← m.slots.lookup (2 * (i + 1))
        let b ← m.slots.lookup (2 * (i + 1) + 1)
        some (slice text a b))

end Conveyor.Regex
