/-
A script session: a store, what was bound in it, and whether it was interrupted.

A session runs programs one after another against one store, so what one leaves there the next one
finds. Running is bounded by a number of steps; a session that was interrupted allows only a few,
and turns every failure after that into an interruption.
-/
import Conveyor.Lua.Step
import Conveyor.Script.Error
import Conveyor.Script.Helper
import Conveyor.Script.Location
import Conveyor.Script.Prelude
import Conveyor.Script.Rewrite
import Conveyor.Workflow.Item

set_option autoImplicit false

namespace Conveyor.Script

/-- What scripts are given (`ScriptBindings`). -/
structure Bindings where
  /-- The position of the current item, counted from zero. -/
  itemIndex : Nat := 0
  items : Items := []
  /-- What the nodes that have run put out, by name. -/
  nodeOutputs : List (String × Items) := []
  vars : Json.Object := []
  helpers : Helpers := []

/-- How code is read (`RunMode`). -/
inductive Mode where
  /-- An expression is the result; statements are allowed too. -/
  | expression
  /-- Statements, which return their result. -/
  | statements
  deriving DecidableEq

/-- A session (`LuaRuntime`). -/
structure Session where
  store : Option Lua.Heap := none
  helpers : Helpers := []
  interrupted : Bool := false
  /-- The line a program was on when the interruption was noticed. -/
  interruptedLine : Nat := 0

namespace Session

/-! ## Binding -/

/-- The name a binding has inside the language. -/
def boundName (name : String) : String := "__" ++ name

/-- Sets a global to a JSON value. -/
def setGlobal (h : Lua.Heap) (name : String) (v : Json) : Lua.Heap :=
  let (h, v) := Lua.inject h v
  h.setField h.globals name v

/-- Items as JSON. -/
def itemsValue (items : Items) : Json := .arr (items.map Item.encode)

/-- Sets the globals that carry bindings (`inject_bindings`). -/
def setBindings (b : Bindings) (h : Lua.Heap) : Lua.Heap :=
  let h := setGlobal h "__input_items" (itemsValue b.items)
  let h := setGlobal h "__node_outputs" (.obj (b.nodeOutputs.map fun p => (p.1, itemsValue p.2)))
  let h := h.setField h.globals "__item_position" (.int (Int64.ofNat (b.itemIndex + 1)))
  let h := h.setField h.globals "null" .null
  let h := b.vars.foldl (fun h p => setGlobal h (boundName p.1) p.2) h
  b.helpers.foldl (fun h p =>
    let (h, ref) := h.newFunction (.host p.1)
    h.setField h.globals (boundName p.1) (.function ref)) h

/-- Removes the globals that scripts do not find. -/
def removeGlobals (h : Lua.Heap) : Lua.Heap :=
  removedGlobals.foldl (fun h name => h.setField h.globals name .nil) h

/-- Helpers as functions of the host. -/
def hostOf (helpers : Helpers) : Lua.Host := fun name =>
  (helpers.get? name).map fun f args =>
    match f args with
    | .ok v => .ok v
    | .error e => .error e.message

/-- A failure with its trace. -/
def withTrace (f : Lua.Failure) : String :=
  f.text ++ "\nstack traceback:\n\t" ++ "\n\t".intercalate f.trace

/-- The most steps that the prelude takes. -/
def preludeSteps : Nat := 100000

/-- The failure of the prelude, and the store it leaves. -/
def runPrelude (host : Lua.Host) (h : Lua.Heap) : Option String × Lua.Heap :=
  match prelude with
  | .error p => (some ("syntax error: " ++ p.text preludeName), h)
  | .ok f =>
    match f.run host h preludeSteps with
    | .finished h _ => (none, h)
    | .failed h failure => (some ("runtime error: " ++ withTrace failure), h)
    | .exhausted h _ => (some "runtime error: script execution interrupted", h)

/-- Starts over with a fresh store (`initialize`). -/
def start (s : Session) : Session := { s with store := some Lua.Heap.initial }

/-- The failure of an operation that needs a store. -/
def notStarted : Error := .setup "Lua runtime used before initialize"

/-- Binds what scripts are given (`inject`). -/
def bind (s : Session) (b : Bindings) : Except Error Unit × Session :=
  match s.store with
  | none => (.error notStarted, s)
  | some h =>
    let helpers := b.helpers ++ s.helpers
    match runPrelude (hostOf helpers) (setBindings b h) with
    | (none, h) => (.ok (), { s with store := some (removeGlobals h), helpers := helpers })
    | (some message, h) => (.error (.setup message), { s with store := some h, helpers := helpers })

/-- Raises the interruption, which is never taken back (`InterruptHandle::interrupt`). -/
def interrupt (s : Session) : Session := { s with interrupted := true }

/-! ## Running -/

/-- A program from code. -/
def compile (mode : Mode) (code : String) : Except Lua.Problem Lua.Function :=
  let source := String.ofList (rewrite code.toList)
  match mode with
  | .statements => Lua.parse chunkName source
  | .expression =>
    match Lua.parse chunkName ("return " ++ source) with
    | .ok f => .ok f
    | .error _ => Lua.parse chunkName source

/-- The error a session reports (`LuaRuntime::script_error`). -/
def report (s : Session) (message context : String) : Error :=
  if s.interrupted then .interrupted (max 1 s.interruptedLine)
  else
    let (text, line) := locate message context
    .script text line

/-- The error of a failed program. -/
def reportFailure (s : Session) (f : Lua.Failure) : Error :=
  s.report (if f.host then f.text else withTrace f) (withTrace f)

/-- How many steps pass before a raised interruption is noticed (`HOOK_INSTRUCTION_INTERVAL`). -/
def stepsToNotice : Nat := 2000

/-- Runs a program for at most so many steps, and gives its first result (`LuaRuntime::run`). -/
def run (s : Session) (mode : Mode) (steps : Nat) (code : String) : Except Error Json × Session :=
  match s.store with
  | none => (.error notStarted, s)
  | some h =>
    match compile mode code with
    | .error p => let text := p.text chunkName; (.error (s.report text text), s)
    | .ok f =>
      match f.run (hostOf s.helpers) h
        (if s.interrupted then min stepsToNotice steps else steps) with
      | .finished h vs =>
        let s := { s with store := some h }
        match Lua.extract h (Lua.first vs) with
        | .ok v => (.ok (v.getD .null), s)
        | .error e => (.error (s.report e.message e.message), s)
      | .failed h failure =>
        let s := { s with store := some h }
        (.error (s.reportFailure failure), s)
      | .exhausted h line =>
        let s := { s with store := some h, interrupted := true, interruptedLine := line }
        (.error (.interrupted (max 1 line)), s)

end Session

end Conveyor.Script
