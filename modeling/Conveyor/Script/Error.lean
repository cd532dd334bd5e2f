/-
What can go wrong when a script runs.

A script fails with a message of its own, runs out of its time budget, is interrupted from outside,
or hands back something that is not what was asked for. The first three know the line they happened
on.
-/
import Conveyor.Decimal.Layout

set_option autoImplicit false

namespace Conveyor.Script

/-- Why a returned value is not what was asked for; kinds of values are named by their type. -/
inductive OutputError where
  | entryNotObject (index : Nat) (actual : String)
  | nothingReturned
  | notItems (actual : String)
  | notObject (actual : String)
  deriving DecidableEq

/-- The text of an output error. -/
def OutputError.message : OutputError → String
  | entryNotObject index actual =>
    "item " ++ Decimal.natText index ++ " is a " ++ actual ++ ", expected an object"
  | nothingReturned => "nothing was returned, add a return statement"
  | notItems actual => "expected an object or an array of objects, got a " ++ actual
  | notObject actual => "expected an object to be returned, got a " ++ actual

/-- A failed script (`SandboxError`). -/
inductive Error where
  | script (message : String) (line : Nat)
  /-- The budget is in milliseconds. -/
  | timeout (budget : Nat) (line : Nat)
  | interrupted (line : Nat)
  | invalidOutput (cause : OutputError)
  | setup (message : String)
  deriving DecidableEq

/-- A budget in the largest unit that needs no more than a fraction: seconds, or milliseconds. -/
def budgetText (ms : Nat) : String :=
  if ms = 0 then "0ns"
  else if ms < 1000 then Decimal.natText ms ++ "ms"
  else if ms % 1000 = 0 then Decimal.natText (ms / 1000) ++ "s"
  else
    let digits := (Decimal.padZeros 3 (Decimal.natText (ms % 1000))).toList
    Decimal.natText (ms / 1000) ++ "." ++
      String.ofList (digits.reverse.dropWhile (· == '0')).reverse ++ "s"

/-- The line an error is known to have happened on (`SandboxError::line`). -/
def Error.line? : Error → Option Nat
  | script _ line | timeout _ line | interrupted line => some line
  | invalidOutput _ | setup _ => none

/-- A message with the line it is about. -/
def atLine (message : String) (line : Nat) : String :=
  message ++ " [line " ++ Decimal.natText line ++ "]"

/-- The text of an error. -/
def Error.message : Error → String
  | script message line => atLine message line
  | timeout budget line => atLine ("Script execution timed out after " ++ budgetText budget) line
  | interrupted line => atLine "Script execution was interrupted" line
  | invalidOutput cause => "Code doesn't return items properly: " ++ cause.message
  | setup message => "Sandbox setup failed: " ++ message

end Conveyor.Script
