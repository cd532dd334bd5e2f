/-
Hooks, by which a host follows a run.

A hook is called when a run starts and ends, and before and after every execution of a node. At each
stage every hook is called, in order, and a hook that fails does not keep the others from being
called. A hook may change the state of the run that it is shown.
-/
import Conveyor.Run.Basic

set_option autoImplicit false

namespace Conveyor

/-- What a hook does at a stage: it may fail, and may change what it is shown. -/
abbrev HookAction (σ : Type) := σ → Except String Unit × σ

/-- Does nothing. -/
def HookAction.idle {σ : Type} : HookAction σ := fun s => (.ok (), s)

/-- A hook (`ExecutionLifecycleHook`). -/
structure Hook where
  runStarts : Workflow → HookAction RunState := fun _ => .idle
  nodeStarts : (node : String) → HookAction RunState := fun _ => .idle
  nodeEnds : (node : String) → Task → HookAction RunState := fun _ _ => .idle
  runEnds : Workflow → HookAction Run := fun _ => .idle

/-- A stage at which hooks are called. -/
inductive Stage where
  | runStarts (workflow : String)
  | nodeStarts (node : String)
  | nodeEnds (node : String) (task : Task)
  | runEnds (status : RunStatus)

/-- Calls of hooks: which hook, and at which stage. -/
abbrev HookLog := List (Nat × Stage)

/-- Calls hooks one after another, the first of them being number `n` (`ExecutionHooks`). -/
def callHooks {σ : Type} (stage : Stage) (n : Nat) : List (HookAction σ) → σ → HookLog × σ
  | [], s => ([], s)
  | f :: fs, s =>
    let (log, s) := callHooks stage (n + 1) fs (f s).2
    ((n, stage) :: log, s)

end Conveyor
