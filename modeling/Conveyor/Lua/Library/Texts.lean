/-
Functions on texts, which are byte strings here: positions count bytes, and case is that of ASCII.
-/
import Conveyor.Lua.Format
import Conveyor.Lua.Pattern

set_option autoImplicit false

namespace Conveyor.Lua.Library

open Numeral

/-! ## Pieces -/

/-- Where a piece starts, counted from one: negative positions count from the end. -/
def startPosition (i : Int) (length : Nat) : Nat :=
  if 0 < i then i.toNat
  else if i = 0 then 1
  else if i < -(length : Int) then 1
  else (length + i + 1).toNat

/-- Where a piece ends, counted from one. -/
def endPosition (i : Int) (length : Nat) : Nat :=
  if (length : Int) < i then length
  else if 0 ≤ i then i.toNat
  else if i < -(length : Int) then 0
  else (length + i + 1).toNat

/-- A piece between two positions. -/
def piece (args : List Value) : Except Fault (List Value) := do
  let s ← checkText args 1
  let start := startPosition (← checkInt args 2).toInt s.size
  let stop := endPosition (← optInt args 3 (-1)).toInt s.size
  return [.str (if stop < start then ByteArray.empty else s.extract (start - 1) stop)]

/-- The bytes between two positions. -/
def bytesOf (args : List Value) : Except Fault (List Value) := do
  let s ← checkText args 1
  let i ← optInt args 2 1
  let start := startPosition i.toInt s.size
  let stop := endPosition (← optInt args 3 i).toInt s.size
  return ((s.extract (start - 1) stop).toList).map fun b => .int (Int64.ofNat b.toNat)

/-- The text of bytes. -/
def ofBytes (args : List Value) : Except Fault (List Value) := do
  let bytes ← (List.range args.length).mapM fun i => do
    let c ← checkInt args (i + 1)
    checkThat (0 ≤ c && c ≤ 255) (i + 1) "value out of range"
    return c.toUInt64.toUInt8
  return [.str (ByteArray.mk bytes.toArray)]

/-- The number of bytes. -/
def length (args : List Value) : Except Fault (List Value) := do
  return [.int (Int64.ofNat (← checkText args 1).size)]

/-- Each byte changed. -/
def mapped (f : UInt8 → UInt8) (args : List Value) : Except Fault (List Value) := do
  return [.str (ByteArray.mk ((← checkText args 1).data.map f))]

/-- The capital of an ASCII letter. -/
def upper (c : UInt8) : UInt8 := if 97 ≤ c && c ≤ 122 then c - 32 else c

/-- The bytes in opposite order. -/
def reversed (args : List Value) : Except Fault (List Value) := do
  return [.str (ByteArray.mk (← checkText args 1).data.reverse)]

/-- The longest text that is built by repetition. -/
def maxRepeated : Nat := 2 ^ (28 : Nat)

/-- Copies of a text, a separator between them. -/
def copies (s separator : ByteArray) : (n : Nat) → ByteArray → ByteArray
  | 0, out => out
  | n + 1, out => copies s separator n (if n = 0 then out ++ s else out ++ s ++ separator)

/-- A text repeated. -/
def repeated (args : List Value) : Except Fault (List Value) := do
  let s ← checkText args 1
  let n := (← checkInt args 2).toInt
  let separator ← optText args 3 ByteArray.empty
  if n ≤ 0 then return [.str ByteArray.empty]
  else if 2 ^ (63 : Nat) ≤ (s.size + separator.size) * n.toNat then
    .error (.located "resulting string too large")
  else if maxRepeated ≤ (s.size + separator.size) * n.toNat then .error (.plain "not enough memory")
  else if s.size + separator.size = 0 then return [.str ByteArray.empty]
  else return [.str (copies s separator n.toNat ByteArray.empty)]

/-- A formatted text. -/
def formatted (args : List Value) : Except Fault (List Value) := do
  let f ← checkText args 1
  return [.str (← Format.render args (f.size + 1) 1 f.toList ByteArray.empty)]

/-! ## Patterns -/

/-- A captured piece or position as a value. -/
def ofCaptured : Pattern.Captured → Value
  | .piece s => .str s
  | .position n => .int (Int64.ofNat n)

/-- A malformed pattern is told the position of the caller. -/
def patternFault {α : Type} : Except Pattern.Fault α → Except Fault α
  | .ok a => .ok a
  | .error e => .error (.located e)

/-- The captures of a match as values. -/
def captures (s : ByteArray) (start : Nat) (found : Pattern.Found) (orWhole : Bool) :
    Except Fault (List Value) :=
  (patternFault (Pattern.allCaptured s start found orWhole)).map fun cs => cs.map ofCaptured

/-- The first place where a text holds another, or matches a pattern. -/
def find (args : List Value) : Except Fault (List Value) := do
  let s ← checkText args 1
  let p ← checkText args 2
  let start := startPosition (← optInt args 3 1).toInt s.size - 1
  if s.size < start then return [.nil]
  else if (argument args 4).truthy || Pattern.isPlain p then
    match Pattern.findPlain s p (s.size + 1) start with
    | some i => return [.int (Int64.ofNat (i + 1)), .int (Int64.ofNat (i + p.size))]
    | none => return [.nil]
  else
    let (anchored, pattern) := Pattern.splitAnchor p
    match ← patternFault (Pattern.search s pattern anchored (s.size + 1) start) with
    | some (i, found) =>
      return [.int (Int64.ofNat (i + 1)), .int (Int64.ofNat found.stop)] ++
        (← captures s i found false)
    | none => return [.nil]

/-- The captures of the first match of a pattern. -/
def firstMatch (args : List Value) : Except Fault (List Value) := do
  let s ← checkText args 1
  let p ← checkText args 2
  let start := startPosition (← optInt args 3 1).toInt s.size - 1
  if s.size < start then return [.nil]
  else
    let (anchored, pattern) := Pattern.splitAnchor p
    match ← patternFault (Pattern.search s pattern anchored (s.size + 1) start) with
    | some (i, found) => captures s i found true
    | none => return [.nil]

/-- An iterator over the matches of a pattern. -/
def matchesOf (h : Heap) (args : List Value) : Plan :=
  .andThen h (checkText args 1) fun s =>
    .andThen h (checkText args 2) fun p =>
      .andThen h (optInt args 3 1) fun i =>
        let start := min (startPosition i.toInt s.size - 1) (s.size + 1)
        let (h, ref) := h.newFunction (.matches s p start none)
        .finish h [.function ref]

/-- The first match at or after a position that does not end where the last one ended. -/
def searchAfter (s : ByteArray) (pattern : List UInt8) (last : Option Nat) :
    (fuel pos : Nat) → Except Pattern.Fault (Option (Nat × Pattern.Found))
  | 0, _ => .ok none
  | fuel + 1, pos =>
    if s.size < pos then .ok none
    else
      match Pattern.matchHere s pattern pos with
      | .error e => .error e
      | .ok (some found) =>
        if some found.stop == last then searchAfter s pattern last fuel (pos + 1)
        else .ok (some (pos, found))
      | .ok none => searchAfter s pattern last fuel (pos + 1)

/-- The next match of an iterator. -/
def nextMatch (h : Heap) (ref : Nat) (s p : ByteArray) (start : Nat) (last : Option Nat) : Plan :=
  .andThen h (patternFault (searchAfter s p.toList last (s.size + 2) start)) fun r =>
    match r with
    | none => .finish h [.nil]
    | some (i, found) =>
      .andThen h (captures s i found true) fun vs =>
        let state := Callable.matches s p found.stop (some found.stop)
        .finish { h with functions := h.functions.setIfInBounds ref state } vs

/-! ## Replacing -/

/-- A replacement text with its references to captures filled in. -/
def fillIn (s : ByteArray) (start : Nat) (found : Pattern.Found) :
    (fuel : Nat) → List UInt8 → ByteArray → Except Fault ByteArray
  | 0, _, out => .ok out
  | _, [], out => .ok out
  | fuel + 1, c :: cs, out =>
    if c != Pattern.esc then fillIn s start found fuel cs (out.push c)
    else
      match cs with
      | d :: rest =>
        if d == Pattern.esc then fillIn s start found fuel rest (out.push d)
        else if d == 48 then fillIn s start found fuel rest (out ++ s.extract start found.stop)
        else if isDigit d then
          match patternFault (Pattern.captured s start found (d.toNat - 49)) with
          | .ok (.piece t) => fillIn s start found fuel rest (out ++ t)
          | .ok (.position n) => fillIn s start found fuel rest (out ++ (Decimal.natText n).toUTF8)
          | .error e => .error e
        else .error (.located "invalid use of '%' in replacement string")
      | [] => .error (.located "invalid use of '%' in replacement string")

/-- What a replacement value puts in place of a match. -/
def substitute (s : ByteArray) (start : Nat) (found : Pattern.Found) (v : Value) :
    Except Fault ByteArray :=
  if !v.truthy then .ok (s.extract start found.stop)
  else
    match v.bytes? with
    | some t => .ok t
    | none => .error (.located ("invalid replacement value (a " ++ v.typeName ++ ")"))

/-- What stands in place of a match, according to the kind of replacement. -/
def replacement (h : Heap) (s : ByteArray) (start : Nat) (found : Pattern.Found) (repl : Value)
    (k : Heap → ByteArray → Plan) : Plan :=
  match repl with
  | .table ref =>
    .andThen h (patternFault (Pattern.captured s start found 0)) fun c =>
      indexed h (.table ref) (ofCaptured c) fun h v =>
        .andThen h (substitute s start found v) fun t => k h t
  | .function ref =>
    .andThen h (captures s start found true) fun vs =>
      .call h (.function ref) vs fun h results =>
        .andThen h (substitute s start found (first results)) fun t => k h t
  | v =>
    let text := v.bytes?.getD ByteArray.empty
    .andThen h (fillIn s start found (text.size + 1) text.toList ByteArray.empty) fun t => k h t

/-- Replaces matches from a position on, at most so many; `out` is what was built and `n` counts the
replacements. -/
def replaceFrom (s : ByteArray) (pattern : List UInt8) (anchored : Bool) (repl : Value) :
    (fuel : Nat) → Heap → (pos limit n : Nat) → (last : Option Nat) → ByteArray → Plan
  | 0, h, pos, _, n, _, out => done h pos n out
  | fuel + 1, h, pos, limit, n, last, out =>
    if limit ≤ n then done h pos n out
    else
      match Pattern.matchHere s pattern pos with
      | .error e => .fail h (.located e)
      | .ok r =>
        match r.filter fun found => some found.stop != last with
        | some found =>
          replacement h s pos found repl fun h t =>
            if anchored then done h found.stop (n + 1) (out ++ t)
            else
              replaceFrom s pattern anchored repl fuel h found.stop limit (n + 1) (some found.stop)
                (out ++ t)
        | none =>
          if pos < s.size then
            let out := out ++ s.extract pos (pos + 1)
            if anchored then done h (pos + 1) n out
            else replaceFrom s pattern anchored repl fuel h (pos + 1) limit n last out
          else done h pos n out
where
  done (h : Heap) (pos n : Nat) (out : ByteArray) : Plan :=
    .finish h [.str (out ++ s.extract pos s.size), .int (Int64.ofNat n)]

/-- Replaces the matches of a pattern by a text, the entries of a table, or the results of a
function. -/
def replaceAll (h : Heap) (args : List Value) : Plan :=
  .andThen h (checkText args 1) fun s =>
    .andThen h (checkText args 2) fun p =>
      let repl := argument args 3
      let fits := match repl with
        | .int _ | .float _ | .str _ | .table _ | .function _ => true
        | _ => false
      .andThen h (optInt args 4 (Int64.ofNat (s.size + 1))) fun limit =>
        if !fits then .fail h (typeFault args 3 "string/function/table")
        else
          let (anchored, pattern) := Pattern.splitAnchor p
          replaceFrom s pattern anchored repl (2 * s.size + 4) h 0 limit.toInt.toNat 0 none
            ByteArray.empty

end Conveyor.Lua.Library
