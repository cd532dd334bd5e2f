/-
The lexemes of a program.

A program is cut into names, keywords and signs, numbers and strings; blanks and comments stand
between them. Text that is none of these ends the list with a broken lexeme, which is an error only
when a reader comes to it. Every lexeme knows the line it ends on and how a message shows it.
-/
import Conveyor.Lua.Numeral
import Conveyor.Text.Utf8

set_option autoImplicit false

namespace Conveyor.Lua

/-- A lexeme without its position. Signs and keywords are known by their text. -/
inductive Token where
  | name (s : String)
  | sign (s : String)
  | number (v : Value)
  | string (s : ByteArray)
  | finish
  | broken (message : String)
  deriving Inhabited

/-- A token, how messages show it (empty if they do not), and the line it ends on. -/
structure Lexeme where
  token : Token
  shown : String
  line : Nat
  deriving Inhabited

namespace Lexeme

open Numeral

/-- The words that are not names. -/
def keywords : List String :=
  ["and", "break", "do", "else", "elseif", "end", "false", "for", "function", "goto", "if", "in",
    "local", "nil", "not", "or", "repeat", "return", "then", "true", "until", "while"]

/-- Bytes as a message shows them. -/
def quoted (cs : List UInt8) : String := "'" ++ Text.lossy (ByteArray.mk cs.toArray) ++ "'"

/-- The end of the text as a message shows it. -/
def finishText : String := "<eof>"

/-- The beginning of a name. -/
def isNameStart (c : UInt8) : Bool := isLetter c || c == 95

/-- The rest of a name. -/
def isNameRest (c : UInt8) : Bool := isNameStart c || isDigit c

/-! ## Line ends -/

/-- A line feed or a carriage return. -/
def isNewline (c : UInt8) : Bool := c == 10 || c == 13

/-- What follows a line end that starts with `c`: the two characters in either order are one line
end. -/
def afterNewline (c : UInt8) : List UInt8 → List UInt8
  | d :: cs => if isNewline d && d != c then cs else d :: cs
  | [] => []

/-! ## Long brackets -/

/-- The level of a long bracket whose first character was read: the equal signs before the second
one. Without a second one, the number of equal signs comes back as an error. -/
def bracketLevel (edge : UInt8) (cs : List UInt8) : Except Nat (Nat × List UInt8) :=
  let (signs, rest) := cs.span (· == 61)
  match rest with
  | c :: rest => if c == edge then .ok (signs.length, rest) else .error signs.length
  | [] => .error signs.length

/-- The contents up to the closing bracket of a level, what follows, and the line reached; line ends
become line feeds. -/
def longText (level : Nat) : (fuel : Nat) → List UInt8 → Nat → List UInt8 →
    Option (List UInt8 × List UInt8 × Nat)
  | 0, _, _, _ => none
  | _, [], _, _ => none
  | fuel + 1, c :: cs, line, acc =>
    if c == 93 then
      match bracketLevel 93 cs with
      | .ok (found, rest) =>
        if found == level then some (acc.reverse, rest, line)
        else longText level fuel (93 :: rest) line (List.replicate found 61 ++ c :: acc)
      | .error signs =>
        longText level fuel (cs.drop signs) line (List.replicate signs 61 ++ c :: acc)
    else if isNewline c then longText level fuel (afterNewline c cs) (line + 1) (10 :: acc)
    else longText level fuel cs line (c :: acc)

/-- A line end right after the opening bracket is not part of the text. -/
def skipFirstNewline (line : Nat) : List UInt8 → List UInt8 × Nat
  | c :: cs => if isNewline c then (afterNewline c cs, line + 1) else (c :: cs, line)
  | [] => ([], line)

/-- The text behind an opening long bracket of a level. -/
def longBracket (level : Nat) (cs : List UInt8) (line : Nat) :
    Option (List UInt8 × List UInt8 × Nat) :=
  let (rest, line) := skipFirstNewline line cs
  longText level (rest.length + 1) rest line []

/-! ## Quoted strings -/

/-- Why a quoted string cannot be read, and what was read of it. -/
structure StringError where
  message : String
  shown : String
  line : Nat

/-- The bytes of a code point below `2 ^ 31`, in up to six bytes. -/
def utf8Bytes (n : Nat) : List UInt8 :=
  let tail (k : Nat) : UInt8 := UInt8.ofNat (128 + n / 64 ^ k % 64)
  if n < 0x80 then [UInt8.ofNat n]
  else if n < 0x800 then [UInt8.ofNat (0xC0 + n / 64), tail 0]
  else if n < 0x10000 then [UInt8.ofNat (0xE0 + n / 64 ^ (2 : Nat)), tail 1, tail 0]
  else if n < 0x200000 then [UInt8.ofNat (0xF0 + n / 64 ^ (3 : Nat)), tail 2, tail 1, tail 0]
  else if n < 0x4000000 then
    [UInt8.ofNat (0xF8 + n / 64 ^ (4 : Nat)), tail 3, tail 2, tail 1, tail 0]
  else [UInt8.ofNat (0xFC + n / 64 ^ (5 : Nat)), tail 4, tail 3, tail 2, tail 1, tail 0]

/-- An escape behind its backslash: the bytes it stands for and what follows. An error tells the
characters after the backslash up to the one that does not fit. -/
def escape (cs : List UInt8) : Except (String × List UInt8) (List UInt8 × List UInt8) :=
  match cs with
  | 97 :: cs => .ok ([7], cs)
  | 98 :: cs => .ok ([8], cs)
  | 102 :: cs => .ok ([12], cs)
  | 110 :: cs => .ok ([10], cs)
  | 114 :: cs => .ok ([13], cs)
  | 116 :: cs => .ok ([9], cs)
  | 118 :: cs => .ok ([11], cs)
  | 120 :: cs => hexPair cs
  | 117 :: cs => codePoint cs
  | c :: rest =>
    if c == 92 || c == 34 || c == 39 then .ok ([c], rest)
    else if isDigit c then
      let ds := (cs.take 3).takeWhile isDigit
      let rest := cs.drop ds.length
      let n := natOf 10 ds
      if n ≤ 255 then .ok ([UInt8.ofNat n], rest)
      else .error ("decimal escape too large", ds ++ rest.take 1)
    else .error ("invalid escape sequence", [c])
  | [] => .ok ([92], [])
where
  hexPair : List UInt8 → Except (String × List UInt8) (List UInt8 × List UInt8)
    | a :: cs =>
      if !isHex a then .error ("hexadecimal digit expected", [120, a])
      else
        match cs with
        | b :: cs =>
          if isHex b then .ok ([UInt8.ofNat (natOf 16 [a, b])], cs)
          else .error ("hexadecimal digit expected", [120, a, b])
        | [] => .error ("hexadecimal digit expected", [120, a])
    | [] => .error ("hexadecimal digit expected", [120])
  codePoint : List UInt8 → Except (String × List UInt8) (List UInt8 × List UInt8)
    | 123 :: cs =>
      let (ds, rest) := cs.span isHex
      let seen := 117 :: 123 :: ds
      if ds.isEmpty then .error ("hexadecimal digit expected", seen ++ rest.take 1)
      else
        match firstTooLarge ds 1 ds.length with
        | some n => .error ("UTF-8 value too large", 117 :: 123 :: ds.take n)
        | none =>
          match rest with
          | 125 :: rest => .ok (utf8Bytes (natOf 16 ds), rest)
          | rest => .error ("missing '\x7d'", seen ++ rest.take 1)
    | rest => .error ("missing '\x7b'", 117 :: rest.take 1)
  /-- How many digits were read when the value grew too large. -/
  firstTooLarge (ds : List UInt8) (n : Nat) : Nat → Option Nat
    | 0 => none
    | fuel + 1 =>
      if ds.length ≤ n then none
      else if natOf 16 (ds.take n) ≤ 0x7FFFFFF then firstTooLarge ds (n + 1) fuel
      else some (n + 1)

/-- Skips white space, counting lines. -/
def skipSpace : (fuel : Nat) → List UInt8 → Nat → List UInt8 × Nat
  | fuel + 1, c :: cs, line =>
    if isNewline c then skipSpace fuel (afterNewline c cs) (line + 1)
    else if isSpace c then skipSpace fuel cs line
    else (c :: cs, line)
  | _, cs, line => (cs, line)

/-- The rest of a quoted string: what was read (quotes included, last byte first), what follows and
the line reached. -/
def quotedText (quote : UInt8) : (fuel : Nat) → List UInt8 → Nat → List UInt8 →
    Except StringError (List UInt8 × List UInt8 × Nat)
  | 0, _, line, _ => .error ⟨"unfinished string", finishText, line⟩
  | _, [], line, _ => .error ⟨"unfinished string", finishText, line⟩
  | fuel + 1, c :: cs, line, acc =>
    if c == quote then .ok (c :: acc, cs, line)
    else if isNewline c then .error ⟨"unfinished string", quoted acc.reverse, line⟩
    else if c == 92 then
      match cs with
      | 122 :: cs =>
        let (rest, line) := skipSpace (cs.length + 1) cs line
        quotedText quote fuel rest line acc
      | d :: rest =>
        if isNewline d then quotedText quote fuel (afterNewline d rest) (line + 1) (10 :: acc)
        else
          match escape cs with
          | .ok (bytes, rest) => quotedText quote fuel rest line (bytes.reverse ++ acc)
          | .error (message, seen) =>
            .error ⟨message, quoted (acc.reverse ++ 92 :: seen), line⟩
      | [] => .error ⟨"unfinished string", finishText, line⟩
    else quotedText quote fuel cs line (c :: acc)

/-! ## Numbers -/

/-- The characters of a numeral: digits, points, letters of hexadecimal digits, and exponent marks
with an optional sign. -/
def numeralText (mark : UInt8) : (fuel : Nat) → List UInt8 → List UInt8 → List UInt8 × List UInt8
  | fuel + 1, c :: cs, acc =>
    if lower c == mark then
      match cs with
      | d :: rest =>
        if d == 43 || d == 45 then numeralText mark fuel rest (d :: c :: acc)
        else numeralText mark fuel cs (c :: acc)
      | [] => numeralText mark fuel cs (c :: acc)
    else if isHex c || c == 46 then numeralText mark fuel cs (c :: acc)
    else if isNameStart c then ((c :: acc).reverse, cs)
    else (acc.reverse, c :: cs)
  | _, cs, acc => (acc.reverse, cs)

/-- A numeral at the head of a text; `start` was read before it. -/
def numeral (start cs : List UInt8) : List UInt8 × List UInt8 :=
  match cs with
  | 48 :: x :: rest =>
    if lower x == 120 then numeralText 112 (rest.length + 1) rest (x :: 48 :: start)
    else numeralText 101 (cs.length + 1) cs start
  | cs => numeralText 101 (cs.length + 1) cs start

/-! ## Signs -/

/-- The signs, longer ones before their beginnings. -/
def signs : List (List UInt8) :=
  ["...", "..", "==", "~=", "<=", "<<", ">=", ">>", "//", "::", "+", "-", "*", "/", "%", "^", "#",
    "&", "~", "|", "<", ">", "=", "(", ")", "\x7b", "\x7d", "[", "]", ";", ":", ",", "."].map
    fun s => s.toUTF8.toList

/-- The sign at the head of a text. Any other character is a sign of its own that no rule
mentions. -/
def takeSign (c : UInt8) (cs : List UInt8) : Token × String × List UInt8 :=
  match signs.find? (·.isPrefixOf (c :: cs)) with
  | some s =>
    (.sign (Text.lossy (ByteArray.mk s.toArray)), quoted s, (c :: cs).drop s.length)
  | none =>
    if 32 ≤ c && c < 127 then (.sign (Text.lossy (ByteArray.mk #[c])), quoted [c], cs)
    else
      let shown := "'<\\" ++ Decimal.natText c.toNat ++ ">'"
      (.sign shown, shown, cs)

/-! ## Programs -/

/-- What the next lexeme is, or what to go on with if there is none yet. -/
inductive Next where
  | lexeme (l : Lexeme) (rest : List UInt8)
  | skip (rest : List UInt8) (line : Nat)

/-- A lexeme that cannot be read. -/
def broken (message shown : String) (line : Nat) : Next := .lexeme ⟨.broken message, shown, line⟩ []

/-- The message about a long bracket without an end. -/
def unfinishedLong (what : String) (start : Nat) : String :=
  "unfinished long " ++ what ++ " (starting at line " ++ Decimal.natText start ++ ")"

/-- The line a text ends on. -/
def lastLine (cs : List UInt8) (line : Nat) : Nat :=
  (skipAll (cs.length + 1) cs line)
where
  skipAll : (fuel : Nat) → List UInt8 → Nat → Nat
    | fuel + 1, c :: cs, line =>
      if isNewline c then skipAll fuel (afterNewline c cs) (line + 1) else skipAll fuel cs line
    | _, _, line => line

/-- A comment behind its two dashes. -/
def comment (cs : List UInt8) (line : Nat) : Next :=
  let short := Next.skip (cs.dropWhile fun c => !isNewline c) line
  match cs with
  | 91 :: rest =>
    match bracketLevel 91 rest with
    | .ok (level, rest) =>
      match longBracket level rest line with
      | some (_, rest, line) => .skip rest line
      | none => broken (unfinishedLong "comment" line) finishText (lastLine rest line)
    | .error _ => short
  | _ => short

/-- A numeral as a lexeme. -/
def numberNext (start cs : List UInt8) (line : Nat) : Next :=
  let (text, rest) := numeral start cs
  match read? text with
  | some v => .lexeme ⟨.number v, quoted text, line⟩ rest
  | none => broken "malformed number" (quoted text) line

/-- A string in long brackets, or a single bracket. -/
def bracketNext (cs : List UInt8) (line : Nat) : Next :=
  match bracketLevel 91 cs with
  | .ok (level, rest) =>
    match longBracket level rest line with
    | some (text, rest, stop) =>
      let opening := 91 :: List.replicate level 61 ++ [91]
      let closing := 93 :: List.replicate level 61 ++ [93]
      .lexeme ⟨.string (ByteArray.mk text.toArray), quoted (opening ++ text ++ closing), stop⟩ rest
    | none => broken (unfinishedLong "string" line) finishText (lastLine rest line)
  | .error 0 => .lexeme ⟨.sign "[", "'['", line⟩ cs
  | .error signs =>
    broken "invalid long string delimiter" (quoted (91 :: List.replicate signs 61)) line

/-- A quoted string as a lexeme. -/
def quotedNext (quote : UInt8) (cs : List UInt8) (line : Nat) : Next :=
  match quotedText quote (cs.length + 1) cs line [quote] with
  | .ok (acc, rest, stop) =>
    let content := (acc.drop 1).reverse.drop 1
    .lexeme ⟨.string (ByteArray.mk content.toArray), quoted acc.reverse, stop⟩ rest
  | .error e => broken e.message e.shown e.line

/-- A name or a keyword. -/
def wordNext (cs : List UInt8) (line : Nat) : Next :=
  let (word, rest) := cs.span isNameRest
  let s := Text.lossy (ByteArray.mk word.toArray)
  .lexeme ⟨if keywords.contains s then .sign s else .name s, quoted word, line⟩ rest

/-- What stands at the head of a text. -/
def next (c : UInt8) (cs : List UInt8) (line : Nat) : Next :=
  if isNewline c then .skip (afterNewline c cs) (line + 1)
  else if isSpace c then .skip cs line
  else if isNameStart c then wordNext (c :: cs) line
  else if isDigit c then numberNext [] (c :: cs) line
  else if c == 34 || c == 39 then quotedNext c cs line
  else if c == 91 then bracketNext cs line
  else
    match c, cs with
    | 45, 45 :: rest => comment rest line
    | 46, d :: rest =>
      if isDigit d then numberNext [46] (d :: rest) line
      else
        let (token, shown, rest) := takeSign c cs
        .lexeme ⟨token, shown, line⟩ rest
    | _, _ =>
      let (token, shown, rest) := takeSign c cs
      .lexeme ⟨token, shown, line⟩ rest

/-- The lexemes of a text from a line on; the last one is the end of the text or broken. -/
def scanFrom : (fuel : Nat) → List UInt8 → Nat → List Lexeme
  | fuel + 1, c :: cs, line =>
    match next c cs line with
    | .lexeme ⟨.broken message, shown, line⟩ _ => [⟨.broken message, shown, line⟩]
    | .lexeme l rest => l :: scanFrom fuel rest l.line
    | .skip rest line => scanFrom fuel rest line
  | _, _, line => [⟨.finish, finishText, line⟩]

/-- The lexemes of a program. -/
def scan (source : String) : List Lexeme :=
  let cs := source.toUTF8.toList
  scanFrom (cs.length + 1) cs 1

end Lexeme

end Conveyor.Lua
