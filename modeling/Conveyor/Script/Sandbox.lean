/-
Running a script in a sandbox.

Every run has a session of its own, so nothing is carried from one run to the next. A run that does
not end within its budget is a timeout. The budget is told in milliseconds and kept in steps.
-/
import Conveyor.Script.Output
import Conveyor.Script.Session

set_option autoImplicit false

namespace Conveyor.Script

/-- A sandbox. -/
structure Sandbox where
  /-- The budget of a run, in milliseconds. -/
  budget : Nat
  helpers : Helpers

namespace Sandbox

/-- How many steps fit in a millisecond. -/
def stepsPerMillisecond : Nat := 20000

/-- Runs code in a fresh session with a budget in milliseconds (`Sandbox::execute`). -/
def execute (b : Bindings) (mode : Mode) (budget : Nat) (code : String) : Except Error Json :=
  let s : Session := Session.start {}
  match s.bind b with
  | (.error e, _) => .error e
  | (.ok (), s) =>
    match (s.run mode (budget * stepsPerMillisecond) code).1 with
    | .ok v => .ok v
    | .error (.interrupted line) => .error (.timeout budget line)
    | .error e => .error e

/-- The value of code: that of an expression, or what statements return (`run_code`). -/
def runCode (box : Sandbox) (b : Bindings) (code : String) : Except Error Json :=
  execute b .expression box.budget code

/-- The value of code, with a budget of its own (`run_code_with_timeout`). -/
def runCodeWithin (budget : Nat) (b : Bindings) (code : String) : Except Error Json :=
  execute b .expression budget code

/-- The items that code returns (`run_all_items`). -/
def runAllItems (box : Sandbox) (b : Bindings) (code : String) : Except Error Items :=
  match execute b .statements box.budget code with
  | .error e => .error e
  | .ok v =>
    match itemsOf v with
    | .ok items => .ok items
    | .error e => .error (.invalidOutput e)

/-- The item that code returns (`run_per_item`). -/
def runPerItem (box : Sandbox) (b : Bindings) (code : String) : Except Error Item :=
  match execute b .statements box.budget code with
  | .error e => .error e
  | .ok v =>
    match itemOf v with
    | .ok item => .ok item
    | .error e => .error (.invalidOutput e)

end Sandbox

end Conveyor.Script
