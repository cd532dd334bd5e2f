/-
Where a script failed.

The interpreter puts `code:`, a line and a colon in front of a message about user code, and the
trace behind a message has the same form. The first such place is the line of the error; the message
is shown without it and without the trace, and names of bindings are shown as users write them.
-/
import Conveyor.Decimal.Read
import Conveyor.Text.Blank

set_option autoImplicit false

namespace Conveyor.Script

/-- The name of user code (`CHUNK_NAME`). -/
def chunkName : String := "code"

/-- What stands in front of a line (`LOCATION_PREFIX`). -/
def lineMark : List Char := (chunkName ++ ":").toList

/-- The greatest line number. -/
def maxLine : Nat := 2 ^ (32 : Nat) - 1

/-- A line with a colon behind it, at the head of a text. -/
def lineAt? (cs : List Char) : Option Nat :=
  let (ds, rest) := Decimal.spanDigits cs
  let n := Decimal.natOfDigits 0 ds
  if !ds.isEmpty && rest.head? = some ':' && n ≤ maxLine then some n else none

/-- The first line that a text tells (`find_line`). -/
def findLine? : List Char → Option Nat
  | [] => none
  | c :: cs =>
    if lineMark.isPrefixOf (c :: cs) then
      match lineAt? ((c :: cs).drop lineMark.length) with
      | some n => some n
      | none => findLine? cs
    else findLine? cs

/-- A text without the line in front of it. -/
def dropLine (cs : List Char) : List Char :=
  if lineMark.isPrefixOf cs then
    let (digits, rest) := (cs.drop lineMark.length).span (· ≠ ':')
    match rest with
    | _ :: rest => if digits.all Char.isDigit then Text.trimStart rest else cs
    | [] => cs
  else cs

/-- What stands in front of a trace. -/
def traceMark : List Char := "\nstack traceback:".toList

/-- A text without the trace behind it. -/
def dropTrace : List Char → List Char
  | [] => []
  | c :: cs => if traceMark.isPrefixOf (c :: cs) then [] else c :: dropTrace cs

/-- Replaces a text by another, from left to right. -/
def replaceAll (old new : List Char) : (fuel : Nat) → List Char → List Char
  | fuel + 1, c :: cs =>
    if old.isPrefixOf (c :: cs) then new ++ replaceAll old new fuel ((c :: cs).drop old.length)
    else c :: replaceAll old new fuel cs
  | _, cs => cs

/-- Binding names as users write them. -/
def showBindings (cs : List Char) : List Char :=
  let cs := replaceAll "'__node'".toList "'$'".toList cs.length cs
  replaceAll "'__".toList "'$".toList cs.length cs

/-- The message and the line of an error: the line is looked for in the message first and then in
the context around it (`split_location`). -/
def locate (message context : String) : String × Nat :=
  let line := ((findLine? message.toList).orElse fun _ => findLine? context.toList).getD 1
  let text := dropTrace (dropLine (Text.trim message.toList))
  (String.ofList (showBindings text), line)

end Conveyor.Script
