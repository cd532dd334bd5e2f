/-
Starting, repeating and resuming runs.

A run is started at a node that is named, or at every trigger of its workflow; it can be repeated
from a node on, with what an earlier run left there; and a paused run can be resumed. What is asked
for is checked before the run begins, and a run that has begun ends with a result whatever its nodes
do, unless one of them breaks down or waits for a cancellation that does not come.
-/
import Conveyor.Engine.Basic

set_option autoImplicit false

namespace Conveyor

/-- What an engine is asked for (`ExecutionEngine::run`, `run_from_node` and `resume`). -/
inductive Request where
  /-- A run that starts at a node or at every trigger, with items or with one empty item. -/
  | start (id : String) (mode : RunMode) (startNode : Option String) (items : Option Items)
  /-- A run that starts at a node with what an earlier run left there. -/
  | rerun (id : String) (mode : RunMode) (startNode : String) (prior : RunData)
  /-- The rest of a paused run. -/
  | resume (run : Run)

/-- Why a run does not begin. -/
inductive EngineError where
  | graph (cause : GraphError)
  | startNotFound (name : String)
  | noTrigger (workflow : String)
  | notWaiting (id : String) (status : RunStatus)
  deriving DecidableEq

/-- The text of an engine error. -/
def EngineError.message : EngineError → String
  | graph cause => cause.message
  | startNotFound name => "Start node not found: " ++ name
  | noTrigger workflow => "Workflow '" ++ workflow ++ "' has no trigger node to start from"
  | notWaiting id status => "Run " ++ id ++ " is not waiting (status " ++ status.capitalized ++ ")"

/-- The graph of a workflow. -/
def Workflow.graph (w : Workflow) : Except EngineError Graph :=
  (Graph.build w).mapError .graph

/-! ## States that runs begin with -/

/-- The state of a run that starts at some nodes. -/
def RunState.starting (startNode : Option String) (names : List String) (items : Option Items) :
    RunState :=
  { startNode := startNode
    agenda := { stack := names.map fun name => Entry.single name 0 (items.getD [{}]) [] } }

/-- The last output of every node that has run. -/
def RunData.lastOutputs (d : RunData) : Named (List Items) :=
  d.filterMap fun p => p.2.getLast?.map fun t => (p.1, t.output)

/-- The state of a run that starts at a node with what an earlier run left there. -/
def RunState.repeating (g : Graph) (startNode : String) (prior : RunData) : RunState :=
  { startNode := some startNode
    tasks := prior
    agenda := { stack := [g.rebuild prior startNode], outputs := prior.lastOutputs } }

namespace Engine

/-! ## Beginning -/

/-- The nodes a run starts at. -/
def startNodes (e : Engine) (g : Graph) (startNode : Option String) :
    Except EngineError (List String) :=
  match startNode with
  | some name => if (g.node? name).isSome then .ok [name] else .error (.startNotFound name)
  | none =>
    match e.triggers g with
    | [] => .error (.noTrigger g.workflow.id)
    | names => .ok names

/-- Checks what is asked for; gives the run and the state that it begins with. -/
def prepare (e : Engine) (w : Workflow) : Request → Except EngineError (Execution × RunState)
  | .start id mode startNode items => do
    let g ← w.graph
    let names ← e.startNodes g startNode
    return (⟨g, id, mode, e.now⟩, RunState.starting startNode names items)
  | .rerun id mode startNode prior => do
    let g ← w.graph
    let _ ← e.startNodes g (some startNode)
    return (⟨g, id, mode, e.now⟩, RunState.repeating g startNode prior)
  | .resume run =>
    if run.status = .waiting then do
      let g ← w.graph
      return (⟨g, run.id, run.mode, run.startedAt⟩, { run.state with waitTill := none })
    else .error (.notWaiting run.id run.status)

/-- Begins a run in a state. -/
def begin (e : Engine) (x : Execution) (s : RunState) (canceled : Bool) : Phase :=
  let w := x.graph.workflow
  let (log, s) := callHooks (.runStarts w.id) 0 (e.hooks.map fun h => h.runStarts w) s
  .ready
    { state := s, nextIndex := s.tasks.nextIndex, left := e.maxIterations, canceled := canceled,
      log := log }

/-! ## Ending -/

/-- The run that a pass makes, before the hooks have seen it. -/
def runOf (e : Engine) (x : Execution) (s : RunState) (canceled : Bool) : Run :=
  let status := RunStatus.ofOutcome s.error.isSome false canceled s.waitTill.isSome
  { id := x.id
    workflowId := x.graph.workflow.id
    mode := x.mode
    status := status
    finished := !canceled && s.error.isNone && s.waitTill.isNone
    startedAt := x.startedAt
    stoppedAt := some e.now
    waitTill := s.waitTill
    needsDelete := status.needsDelete x.graph.workflow.settings
    state := s }

/-- Ends a pass, as behind the loop of `ExecutionEngine::process`: the run, and all calls of
hooks. -/
def finish (e : Engine) (x : Execution) (p : Pass) (canceled : Bool) : Run × HookLog :=
  let w := x.graph.workflow
  let run := e.runOf x p.state canceled
  let (log, run) := callHooks (.runEnds run.status) 0 (e.hooks.map fun h => h.runEnds w) run
  (run, p.log ++ log)

/-! ## A whole pass -/

/-- How a pass ends. -/
inductive Ending where
  | run (run : Run) (log : HookLog)
  /-- A node broke down. -/
  | broken (message : String)
  /-- A node waits for the run to be canceled. -/
  | lingering

/-- How a pass ends that is at a phase and goes on. -/
def ending (e : Engine) (x : Execution) (phase : Phase) : Ending :=
  match e.advance x phase with
  | .stopped p canceled =>
    let (run, log) := e.finish x p canceled
    .run run log
  | .broken message => .broken message
  | .ready _ | .lingering .. => .lingering

/-- Does what it is asked for; the run may have been canceled beforehand. -/
def perform (e : Engine) (w : Workflow) (r : Request) (canceled : Bool) :
    Except EngineError Ending := do
  let (x, s) ← e.prepare w r
  return e.ending x (e.begin x s canceled)

end Engine

end Conveyor
