/-
Patterns of the script language.

A pattern is a row of items, each a character, a class or a set with an optional repetition, between
captures, anchors, balanced pairs, frontiers and references to captures. It is matched by trying
longer repetitions first, or shorter ones where the item asks for it. A malformed pattern is noticed
only when the matcher comes to the place that is malformed.
-/
import Conveyor.Lua.Numeral

set_option autoImplicit false

namespace Conveyor.Lua.Pattern

open Numeral

/-! ## Items -/

/-- What one character of the text is compared with. -/
inductive Item where
  | any
  | byte (c : UInt8)
  | cls (letter : UInt8)
  | set (negated : Bool) (body : List UInt8)

/-- The escape character. -/
def esc : UInt8 := 37

/-- Printable characters that are neither letters, digits nor the blank. -/
def isPunct (c : UInt8) : Bool := 33 ≤ c && c ≤ 126 && !isLetter c && !isDigit c

/-- Membership in the class of a small letter; `none` if no class has that letter. -/
def classOf? (letter c : UInt8) : Option Bool :=
  if letter == 97 then some (isLetter c)
  else if letter == 99 then some (c < 32 || c == 127)
  else if letter == 100 then some (isDigit c)
  else if letter == 103 then some (33 ≤ c && c ≤ 126)
  else if letter == 108 then some (97 ≤ c && c ≤ 122)
  else if letter == 112 then some (isPunct c)
  else if letter == 115 then some (isSpace c)
  else if letter == 117 then some (65 ≤ c && c ≤ 90)
  else if letter == 119 then some (isLetter c || isDigit c)
  else if letter == 120 then some (isHex c)
  else if letter == 122 then some (c == 0)
  else none

/-- Membership in a class; the class of a capital letter is the complement, and what names no class
stands for itself. -/
def inClass (letter c : UInt8) : Bool :=
  match classOf? (lower letter) c with
  | some b => if letter == lower letter then b else !b
  | none => letter == c

/-- Membership in the body of a set. -/
def inBody (c : UInt8) : List UInt8 → Bool
  | [] => false
  | a :: rest =>
    if a == esc then
      match rest with
      | l :: rest => inClass l c || inBody c rest
      | [] => c == esc
    else
      match rest with
      | 45 :: b :: rest' => (a ≤ c && c ≤ b) || inBody c rest'
      | rest => a == c || inBody c rest

/-- Whether a character is what an item asks for. -/
def Item.has : Item → UInt8 → Bool
  | any, _ => true
  | byte b, c => b == c
  | cls letter, c => inClass letter c
  | set negated body, c => inBody c body != negated

/-- A pattern that is malformed or cannot be matched. -/
abbrev Fault := String

/-- The body of a set whose first character is not a closing bracket any more, and what follows. -/
def takeBody (acc : List UInt8) : (fuel : Nat) → List UInt8 →
    Except Fault (List UInt8 × List UInt8)
  | fuel + 1, c :: cs =>
    let (acc, cs) :=
      if c == esc then
        match cs with
        | d :: cs => (d :: c :: acc, cs)
        | [] => (c :: acc, [])
      else (c :: acc, cs)
    match cs with
    | 93 :: rest => .ok (acc.reverse, rest)
    | cs => takeBody acc fuel cs
  | _, _ => .error "malformed pattern (missing ']')"

/-- The item at the head of a pattern. -/
def takeItem : List UInt8 → Except Fault (Item × List UInt8)
  | [] => .ok (.any, [])
  | c :: cs =>
    if c == esc then
      match cs with
      | l :: rest => .ok (.cls l, rest)
      | [] => .error "malformed pattern (ends with '%')"
    else if c == 91 then
      let (negated, cs) := match cs with
        | 94 :: cs => (true, cs)
        | cs => (false, cs)
      (takeBody [] (cs.length + 1) cs).map fun p => (.set negated p.1, p.2)
    else if c == 46 then .ok (.any, cs)
    else .ok (.byte c, cs)

/-! ## Matching -/

/-- How far a capture has come. -/
inductive Extent where
  | unfinished
  | position
  | length (n : Nat)
  deriving DecidableEq

/-- A capture: where it starts and how far it has come. -/
structure Capture where
  start : Nat
  extent : Extent

/-- Where a match ends, with its captures. -/
structure Found where
  stop : Nat
  captures : Array Capture

/-- What matching comes to: a fault, no match, or a match. -/
abbrev Result := Except Fault (Option Found)

/-- The most captures in a pattern. -/
def maxCaptures : Nat := 32

/-- The most repetitions and captures that may wait for each other. -/
def maxDepth : Nat := 200

/-- How often an item repeats from a position on. -/
def countItem (text : ByteArray) (item : Item) : (fuel pos : Nat) → Nat
  | 0, _ => 0
  | fuel + 1, pos =>
    if h : pos < text.size then
      if item.has text[pos] then countItem text item fuel (pos + 1) + 1 else 0
    else 0

/-- The end of a balanced text that starts with `opening` at a position and ends with `closing`. -/
def balanced (text : ByteArray) (opening closing : UInt8) : (fuel pos depth : Nat) → Option Nat
  | 0, _, _ => none
  | fuel + 1, pos, depth =>
    if h : pos < text.size then
      let c := text[pos]
      if c == closing then
        if depth = 1 then some (pos + 1)
        else balanced text opening closing fuel (pos + 1) (depth - 1)
      else
        balanced text opening closing fuel (pos + 1) (if c == opening then depth + 1 else depth)
    else none

/-- The capture that is closed next. -/
def lastUnfinished (captures : Array Capture) : Option Nat :=
  (List.range captures.size).reverse.find? fun i =>
    match captures[i]? with
    | some c => c.extent == .unfinished
    | none => false

/-- Whether the bytes from one position on repeat those from another. -/
def repeats (text : ByteArray) : (n i j : Nat) → Bool
  | 0, _, _ => true
  | n + 1, i, j =>
    j < text.size && text.data.getD i 0 == text.data.getD j 0 && repeats text n (i + 1) (j + 1)

/-- The byte at a position, zero outside the text. -/
def byteAt (text : ByteArray) (pos : Nat) : UInt8 := text.data.getD pos 0

mutual

/-- Matches a pattern at a position. -/
def matchAt (text : ByteArray) : (fuel depth pos : Nat) → List UInt8 → Array Capture → Result
  | 0, _, _, _, _ => .error "pattern too complex"
  | _, _, pos, [], captures => .ok (some ⟨pos, captures⟩)
  | fuel + 1, depth, pos, c :: cs, captures =>
    if c == 40 then
      match cs with
      | 41 :: rest => opening text fuel depth pos rest captures .position
      | rest => opening text fuel depth pos rest captures .unfinished
    else if c == 41 then
      match lastUnfinished captures with
      | none => .error "invalid pattern capture"
      | some i =>
        nested text fuel depth pos cs
          (captures.modify i fun c => { c with extent := .length (pos - c.start) })
    else if c == 36 && cs.isEmpty then
      .ok (if pos = text.size then some ⟨pos, captures⟩ else none)
    else if c == esc then
      match cs with
      | 98 :: rest =>
        match rest with
        | a :: b :: rest =>
          if pos < text.size && byteAt text pos == a then
            match balanced text a b (text.size + 1) (pos + 1) 1 with
            | some stop => matchAt text fuel depth stop rest captures
            | none => .ok none
          else .ok none
        | _ => .error "malformed pattern (missing arguments to '%b')"
      | 102 :: rest =>
        match rest with
        | 91 :: _ =>
          match takeItem rest with
          | .ok (item, rest) =>
            let before := if pos = 0 then 0 else byteAt text (pos - 1)
            if !item.has before && item.has (byteAt text pos) then
              matchAt text fuel depth pos rest captures
            else .ok none
          | .error e => .error e
        | _ => .error "missing '[' after '%f' in pattern"
      | d :: rest =>
        if isDigit d then
          match captures[d.toNat - 49]? with
          | some ⟨start, .length n⟩ =>
            if d == 48 then .error "invalid capture index %0"
            else if n ≤ text.size - pos && repeats text n start pos then
              matchAt text fuel depth (pos + n) rest captures
            else .ok none
          | some ⟨start, .position⟩ =>
            if d == 48 then .error "invalid capture index %0"
            else
              let _ := start
              .ok none
          | _ =>
            .error ("invalid capture index %" ++
              (if d == 48 then "0" else Decimal.natText (d.toNat - 48)))
        else repetition text fuel depth pos (c :: cs) captures
      | [] => repetition text fuel depth pos (c :: cs) captures
    else repetition text fuel depth pos (c :: cs) captures

/-- Matches what follows, one level deeper. -/
def nested (text : ByteArray) : (fuel depth pos : Nat) → List UInt8 → Array Capture → Result
  | 0, _, _, _, _ => .error "pattern too complex"
  | _, 0, _, _, _ => .error "pattern too complex"
  | fuel + 1, depth + 1, pos, cs, captures => matchAt text fuel depth pos cs captures

/-- Opens a capture. -/
def opening (text : ByteArray) : (fuel depth pos : Nat) → List UInt8 → Array Capture → Extent →
    Result
  | 0, _, _, _, _, _ => .error "pattern too complex"
  | fuel + 1, depth, pos, cs, captures, extent =>
    if maxCaptures ≤ captures.size then .error "too many captures"
    else nested text fuel depth pos cs (captures.push ⟨pos, extent⟩)

/-- Matches an item with its repetition mark, and what follows. -/
def repetition (text : ByteArray) : (fuel depth pos : Nat) → List UInt8 → Array Capture → Result
  | 0, _, _, _, _ => .error "pattern too complex"
  | fuel + 1, depth, pos, cs, captures =>
    match takeItem cs with
    | .error e => .error e
    | .ok (item, rest) =>
      let once := pos < text.size && item.has (byteAt text pos)
      match rest with
      | 63 :: after =>
        if once then
          match nested text fuel depth (pos + 1) after captures with
          | .ok none => matchAt text fuel depth pos after captures
          | r => r
        else matchAt text fuel depth pos after captures
      | 43 :: after =>
        if once then
          longest text fuel depth (pos + 1) (countItem text item text.size (pos + 1)) after captures
        else .ok none
      | 42 :: after =>
        longest text fuel depth pos (countItem text item text.size pos) after captures
      | 45 :: after => shortest text fuel depth pos item after captures
      | after => if once then matchAt text fuel depth (pos + 1) after captures else .ok none

/-- Tries repetitions from the most to none. -/
def longest (text : ByteArray) : (fuel depth pos : Nat) → (n : Nat) → List UInt8 → Array Capture →
    Result
  | 0, _, _, _, _, _ => .error "pattern too complex"
  | fuel + 1, depth, pos, n, after, captures =>
    match nested text fuel depth (pos + n) after captures with
    | .ok none =>
      match n with
      | 0 => .ok none
      | n + 1 => longest text fuel depth pos n after captures
    | r => r

/-- Tries repetitions from none on. -/
def shortest (text : ByteArray) : (fuel depth pos : Nat) → Item → List UInt8 → Array Capture →
    Result
  | 0, _, _, _, _, _ => .error "pattern too complex"
  | fuel + 1, depth, pos, item, after, captures =>
    match nested text fuel depth pos after captures with
    | .ok none =>
      if pos < text.size && item.has (byteAt text pos) then
        shortest text fuel depth (pos + 1) item after captures
      else .ok none
    | r => r

end

/-- Matches a pattern at a position of a text. -/
def matchHere (text : ByteArray) (pattern : List UInt8) (pos : Nat) : Result :=
  matchAt text (4 * (text.size + 4) * (pattern.length + 4)) (maxDepth - 1) pos pattern #[]

/-- The first match of a pattern at or after a position, and where it starts. -/
def search (text : ByteArray) (pattern : List UInt8) (anchored : Bool) :
    (fuel pos : Nat) → Except Fault (Option (Nat × Found))
  | 0, _ => .ok none
  | fuel + 1, pos =>
    match matchHere text pattern pos with
    | .error e => .error e
    | .ok (some found) => .ok (some (pos, found))
    | .ok none =>
      if pos < text.size && !anchored then search text pattern anchored fuel (pos + 1) else .ok none

/-- A pattern without the anchor at its beginning, and whether it had one. -/
def splitAnchor (pattern : ByteArray) : Bool × List UInt8 :=
  match pattern.toList with
  | 94 :: cs => (true, cs)
  | cs => (false, cs)

/-- Whether a pattern is an ordinary text. -/
def isPlain (pattern : ByteArray) : Bool :=
  !pattern.toList.any fun c => "^$*+?.([%-".toUTF8.toList.contains c

/-- The first place at or after a position where a text contains another. -/
def findPlain (text piece : ByteArray) : (fuel pos : Nat) → Option Nat
  | 0, _ => none
  | fuel + 1, pos =>
    if text.size < pos + piece.size then none
    else if text.extract pos (pos + piece.size) == piece then some pos
    else findPlain text piece fuel (pos + 1)

/-! ## Captured values -/

/-- What a capture holds: a piece of the text, or a position counted from one. -/
inductive Captured where
  | piece (s : ByteArray)
  | position (n : Nat)

/-- The value of a capture; the first one of a match without captures is the whole match. -/
def captured (text : ByteArray) (start : Nat) (found : Found) (i : Nat) : Except Fault Captured :=
  match found.captures[i]? with
  | none =>
    if i = 0 then .ok (.piece (text.extract start found.stop))
    else .error ("invalid capture index %" ++ Decimal.natText (i + 1) ++ " in replacement string")
  | some c =>
    match c.extent with
    | .unfinished => .error "unfinished capture"
    | .position => .ok (.position (c.start + 1))
    | .length n => .ok (.piece (text.extract c.start (c.start + n)))

/-- The values of all captures; the whole match if there are none and `orWhole`. -/
def allCaptured (text : ByteArray) (start : Nat) (found : Found) (orWhole : Bool) :
    Except Fault (List Captured) :=
  let n := if found.captures.isEmpty && orWhole then 1 else found.captures.size
  (List.range n).mapM (captured text start found)

end Conveyor.Lua.Pattern
