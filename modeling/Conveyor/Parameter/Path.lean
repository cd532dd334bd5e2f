/-
Paths to parameters.

A path is a list of keys and positions, written `a.b[0].c`. It is looked up in a value by way of a
selector in bracket notation, `$['a']['b'][0]['c']`, which may select several values: a position in
an object selects from every array in it. The first selected value is the one a path finds.
-/
import Conveyor.Decimal.Read
import Conveyor.Json.Value

set_option autoImplicit false

namespace Conveyor.Parameter

/-- One step of a path (`PathSegment`). -/
inductive Segment where
  | key (name : String)
  | index (n : Nat)
  deriving DecidableEq, Repr

/-- A path. -/
abbrev Path := List Segment

namespace Path

/-! ## Reading -/

/-- What is being read: a key, last character first, perhaps behind a dot, or the digits of a
position. -/
inductive Reading where
  | key (acc : List Char) (afterDot : Bool)
  | index (acc : List Char)

/-- The segment of a key that was read. -/
def keyOf (acc : List Char) : Segment := .key (String.ofList acc.reverse)

/-- A position that fits in 64 bits. -/
def indexOf? (acc : List Char) : Option Nat :=
  (Decimal.natOfText? (String.ofList acc.reverse)).filter (· < 2 ^ (64 : Nat))

/-- Reads on; `done` are the segments so far, last one first. -/
def scan (done : List Segment) : Reading → List Char → Option Path
  | .key [] afterDot, [] => if afterDot || done.isEmpty then none else some done.reverse
  | .key acc _, [] => some (keyOf acc :: done).reverse
  | .key [] _, '.' :: cs =>
    match done with
    | .index _ :: _ => scan done (.key [] true) cs
    | _ => none
  | .key acc _, '.' :: cs => scan (keyOf acc :: done) (.key [] true) cs
  | .key [] afterDot, '[' :: cs =>
    if afterDot || done.isEmpty then none else scan done (.index []) cs
  | .key acc _, '[' :: cs => scan (keyOf acc :: done) (.index []) cs
  | .key _ _, ']' :: _ => none
  | .key acc _, c :: cs => scan done (.key (c :: acc) false) cs
  | .index acc, ']' :: cs =>
    match indexOf? acc with
    | some n => scan (.index n :: done) (.key [] false) cs
    | none => none
  | .index acc, c :: cs => if c.isDigit then scan done (.index (c :: acc)) cs else none
  | .index _, [] => none

/-- The path a text spells (`parse_path`). -/
def parse? (text : String) : Option Path := scan [] (.key [] false) text.toList

/-! ## Writing -/

/-- The text of the rest of a path. -/
def restText : Path → String
  | [] => ""
  | .key k :: rest => "." ++ k ++ restText rest
  | .index n :: rest => "[" ++ Decimal.natText n ++ "]" ++ restText rest

/-- The text of a path. -/
def text : Path → String
  | .key k :: rest => k ++ restText rest
  | path => restText path

/-- A key with a backslash before every backslash and quote. -/
def escapeKey : List Char → List Char
  | [] => []
  | '\\' :: cs => '\\' :: '\\' :: escapeKey cs
  | '\'' :: cs => '\\' :: '\'' :: escapeKey cs
  | c :: cs => c :: escapeKey cs

/-- A segment in bracket notation. -/
def bracketText : Segment → String
  | .key k => "['" ++ String.ofList (escapeKey k.toList) ++ "']"
  | .index n => "[" ++ Decimal.natText n ++ "]"

/-- A path in bracket notation (`to_json_path`). -/
def selectorText (path : Path) : String := "$" ++ String.join (path.map bracketText)

/-! ## Reading brackets

Of a key that is written in brackets, less is taken back than was escaped. -/

/-- The greatest position a selector reads. -/
def maxPosition : Nat := 2 ^ (63 : Nat) - 1

/-- The key that is read behind an opening quote, and what follows the closing one. A key goes up to
the first quote. If that has a backslash before it, the backslash is dropped, the quote is part of
the key, and the key goes on to the next quote. -/
def readQuoted? (cs : List Char) : Option (List Char × List Char) :=
  match cs.span (· ≠ '\'') with
  | (_, []) => none
  | (k, quote :: rest) =>
    if k.getLast? = some '\\' then
      match rest.span (· ≠ '\'') with
      | (_, []) => none
      | (more, _ :: rest) => some (k.dropLast ++ quote :: more, rest)
    else some (k, rest)

/-- The segment that is read behind an opening bracket, and what follows the closing one. -/
def readBracket? : List Char → Option (Segment × List Char)
  | '\'' :: cs =>
    match readQuoted? cs with
    | some (k, ']' :: rest) => some (.key (String.ofList k), rest)
    | _ => none
  | cs =>
    match Decimal.spanDigits cs with
    | (ds, ']' :: rest) =>
      ((Decimal.natOfText? (String.ofList ds)).filter (· ≤ maxPosition)).map fun n =>
        (.index n, rest)
    | _ => none

/-- The path that is read from at most `limit` brackets. -/
def readBrackets? : Nat → List Char → Option Path
  | _, [] => some []
  | limit + 1, '[' :: cs =>
    (readBracket? cs).bind fun (s, rest) => (readBrackets? limit rest).map (s :: ·)
  | _, _ => none

/-- The path that is read from a selector. -/
def readSelector? (text : String) : Option Path :=
  match text.toList with
  | '$' :: cs => readBrackets? cs.length cs
  | _ => none

/-! ## Looking up -/

/-- The key that a selector reads back from a quoted key. One quote is read back; a second one, or a
backslash at the end, makes the selector unreadable, and escaped backslashes stay doubled. -/
def readBack? (key : List Char) : Option (List Char) :=
  match (escapeKey key).span (· ≠ '\'') with
  | (cs, []) => if cs.getLast? = some '\\' then none else some cs
  | (cs, quote :: rest) => if quote ∈ rest then none else some (cs.dropLast ++ quote :: rest)

/-- What a selector reads back from a segment. -/
def selector? : Segment → Option Segment
  | .key k => (readBack? k.toList).map fun cs => .key (String.ofList cs)
  | .index n => if n ≤ maxPosition then some (.index n) else none

/-- What a segment selects from a value. -/
def selectFrom (v : Json) : Segment → List Json
  | .key k => (v.member? k).toList
  | .index n =>
    match v with
    | .arr xs => xs[n]?.toList
    | .obj o => o.filterMap fun p => p.2.asArray?.bind (·[n]?)
    | _ => []

/-- What a path selects from some values. -/
def selectAll (vs : List Json) : Path → List Json
  | [] => vs
  | s :: rest => selectAll (vs.flatMap (selectFrom · s)) rest

/-- The value that a path finds, or none; the outer `none` means that the selector is unreadable. -/
def lookup (root : Json) (path : Path) : Option (Option Json) :=
  (path.mapM selector?).map fun path => (selectAll [root] path).head?

end Path

end Conveyor.Parameter
