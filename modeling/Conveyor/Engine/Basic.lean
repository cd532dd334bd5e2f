/-
The engine that executes workflows.

The engine takes one entry after another from the stack of a run. Before each of them it looks
whether the run was canceled. A disabled node hands its first input on; any other node is executed,
and what it puts out is recorded and delivered. A failure ends the run unless the node says that the
run goes on; a node that asks for a pause ends it for the time being. No run takes more entries than
the engine allows.
-/
import Conveyor.Engine.Delivery
import Conveyor.Engine.Hook
import Conveyor.NodeType.Registry
import Conveyor.Text.LowerCase
import Conveyor.Text.Search

set_option autoImplicit false

namespace Conveyor

/-- An engine (`ExecutionEngine`). -/
structure Engine where
  registry : Registry
  box : Script.Sandbox
  hooks : List Hook := []
  maxIterations : Nat := 100000
  /-- The moment; within a pass the clock is read once. -/
  now : Time.Instant
  /-- How many milliseconds it takes to execute the node of an entry. -/
  took : Entry → Nat := fun _ => 0

/-- Which run is executed on which graph. -/
structure Execution where
  graph : Graph
  id : String
  mode : RunMode
  startedAt : Time.Instant

/-- A run under way. -/
structure Pass where
  state : RunState
  /-- The number of the next task. -/
  nextIndex : Nat
  /-- How many entries may still be taken from the stack. -/
  left : Nat
  canceled : Bool
  log : HookLog

/-- Where a run under way stands. -/
inductive Phase where
  /-- Before the next look at the stack. -/
  | ready (p : Pass)
  /-- Inside a node that waits for the run to be canceled. -/
  | lingering (p : Pass) (node : Node) (entry : Entry) (result : NodeResult)
  /-- At its end, which a cancellation may have brought about. -/
  | stopped (p : Pass) (canceled : Bool)
  /-- A node broke down. -/
  | broken (message : String)

namespace Pass

/-- Changes what is to be done. -/
def withAgenda (p : Pass) (a : Agenda) : Pass := { p with state := { p.state with agenda := a } }

/-- Ends a run with an error. -/
def failWith (p : Pass) (message node : String) : Pass :=
  { p with state := { p.state with error := some ⟨message, some node⟩ } }

/-- Calls hooks at a stage. -/
def callHooks (p : Pass) (stage : Stage) (actions : List (HookAction RunState)) : Pass :=
  let (log, state) := Conveyor.callHooks stage 0 actions p.state
  { p with state := state, log := p.log ++ log }

end Pass

/-! ## Results of nodes -/

/-- What is recorded of an execution, after the node's policy on errors has been applied. -/
structure Settled where
  status : TaskStatus
  output : List Items
  error : Option TaskError := none
  till : Option Time.Instant := none

/-- The item that carries the message of a failure. -/
def errorItem (message : String) : Item := { json := [("error", .str message)] }

/-- Applies the policy on errors of a node with a number of regular output ports
(`ExecutionEngine::settle`). -/
def NodeResult.settle (r : NodeResult) (policy : ErrorPolicy) (regular : Nat) : Settled :=
  match r with
  | .failed errors =>
    let message := messageOf errors
    let error : TaskError := { message := message }
    match policy with
    | .stopWorkflow => { status := .error, output := [], error := some error }
    | .continueRegularOutput =>
      { status := .success, output := [[errorItem message]], error := some error }
    | .continueErrorOutput =>
      { status := .success, output := List.replicate regular [] ++ [[errorItem message]],
        error := some error }
  | r => { status := .success, output := r.ports, till := r.till? }

/-! ## Phases -/

namespace Phase

/-- How many steps a run can take at most before it ends or lingers. -/
def bound : Phase → Nat
  | ready p => p.left + 1
  | lingering p .. => p.left + 2
  | stopped .. | broken _ => 0

/-- Whether a run is canceled. -/
def isCanceled : Phase → Bool
  | ready p => p.canceled
  | lingering p .. => p.canceled
  | stopped p _ => p.canceled
  | broken _ => false

/-- Cancels a run. -/
def cancel : Phase → Phase
  | ready p => ready { p with canceled := true }
  | lingering p n entry r => lingering { p with canceled := true } n entry r
  | phase => phase

end Phase

namespace Engine

/-- Resolves parameters by the declarations of the engine's node types. -/
def resolver (e : Engine) : Parameter.Resolver := ⟨e.registry.spec?, e.box⟩

/-- Whether a node starts runs: by the category of its type, or by its name
(`NodeExecutor::is_trigger`). -/
def startsRuns (e : Engine) (n : Node) : Bool :=
  e.registry.category? n.type = some .trigger ||
    Text.occursIn "trigger".toList (Text.lowerCase n.type).toList

/-- The nodes that start a run, in the order of their positions
(`ExecutionEngine::trigger_nodes`). -/
def triggers (e : Engine) (g : Graph) : List String :=
  g.sortByPosition
    ((g.workflow.nodes.filter fun n => !n.disabled && e.startsRuns n).map Node.name)

/-! ## Executing a node -/

/-- What a node is executed with. -/
def input (e : Engine) (x : Execution) (s : RunState) (n : Node) (entry : Entry) : NodeInput where
  view :=
    { workflow := x.graph.workflow, node := n, items := entry.inputs.getD 0 [], tasks := s.tasks,
      executionId := x.id, mode := x.mode, runIndex := (s.tasks.tasks n.name).length }
  inputs := entry.inputs
  sources := entry.sources
  resolver := e.resolver
  now := e.now

/-- Executes a node; one of an unknown type fails (`NodeExecutor::execute_node`). -/
def attempt (e : Engine) (x : Execution) (s : RunState) (n : Node) (entry : Entry) : Attempt :=
  match e.registry.get? n.type with
  | some t => t.execute (e.input x s n entry)
  | none => .returns (.failed ["Unknown node type '" ++ n.type ++ "'"])

/-- The task of an execution. -/
def taskOf (e : Engine) (p : Pass) (entry : Entry) (s : Settled) : Task :=
  { index := p.nextIndex, startTime := e.now, elapsed := e.took entry, status := s.status,
    output := s.output, error := s.error, sources := entry.sources }

/-- Records a task. -/
def record (e : Engine) (p : Pass) (n : Node) (t : Task) : Pass :=
  let state :=
    { p.state with tasks := p.state.tasks.record n.name t, lastNode := some n.name }
  Pass.callHooks { p with state := state, nextIndex := p.nextIndex + 1 } (.nodeEnds n.name t)
    (e.hooks.map fun h => h.nodeEnds n.name t)

/-- Pauses a run until a moment that has not passed yet. -/
def pause (e : Engine) (p : Pass) (till : Option Time.Instant) : Phase :=
  match till with
  | some t =>
    if e.now.lt t then .stopped { p with state := { p.state with waitTill := some t } } false
    else .ready p
  | none => .ready p

/-- Goes on after the execution of a node. -/
def conclude (e : Engine) (x : Execution) (p : Pass) (n : Node) (entry : Entry) (r : NodeResult) :
    Phase :=
  let settled := r.settle n.onError (e.registry.outputs n.type)
  let task := e.taskOf p entry settled
  let p := e.record p n task
  match task.status with
  | .error =>
    let message := (task.error.map TaskError.message).getD NodeResult.failureMessage
    .stopped (p.failWith message n.name) false
  | .success =>
    e.pause (p.withAgenda (x.graph.complete p.state.agenda n.name task.output)) settled.till

/-- Executes a node. -/
def execute (e : Engine) (x : Execution) (p : Pass) (n : Node) (entry : Entry) : Phase :=
  let p := p.callHooks (.nodeStarts n.name) (e.hooks.map fun h => h.nodeStarts n.name)
  match e.attempt x p.state n entry with
  | .returns r => e.conclude x p n entry r
  | .cancelsRun r => e.conclude x { p with canceled := true } n entry r
  | .lingers r => .lingering p n entry r
  | .breaks message => .broken message

/-- Hands the first input of a disabled node on. -/
def bypass (x : Execution) (p : Pass) (n : Node) (entry : Entry) : Phase :=
  .ready (p.withAgenda (x.graph.complete p.state.agenda n.name [entry.inputs.headD []]))

/-! ## The loop -/

/-- The error of a run that takes too many entries. -/
def limitMessage (e : Engine) : String :=
  "Run exceeded the maximum of " ++ Decimal.natText e.maxIterations ++ " node executions"

/-- Works off an entry that was taken from the stack. -/
def take (e : Engine) (x : Execution) (p : Pass) (entry : Entry) : Phase :=
  match p.left with
  | 0 => .stopped (p.failWith e.limitMessage entry.node) false
  | left + 1 =>
    let p := { p with left := left }
    match x.graph.node? entry.node with
    | none =>
      .stopped
        (p.failWith ("Node '" ++ entry.node ++ "' does not exist in the workflow") entry.node) false
    | some n => if n.disabled then bypass x p n entry else e.execute x p n entry

/-- One step of a run: a turn of the loop of `ExecutionEngine::process`. -/
def step (e : Engine) (x : Execution) : Phase → Phase
  | .ready p =>
    if p.canceled then .stopped p true
    else
      match p.state.agenda.stack with
      | [] => .stopped p false
      | entry :: rest =>
        e.take x (p.withAgenda { p.state.agenda with stack := rest }) entry
  | .lingering p n entry r =>
    if p.canceled then e.conclude x p n entry r else .lingering p n entry r
  | .stopped p canceled => .stopped p canceled
  | .broken message => .broken message

/-- Some steps of a run. -/
def steps (e : Engine) (x : Execution) : Nat → Phase → Phase
  | 0, phase => phase
  | n + 1, phase => e.steps x n (e.step x phase)

/-- Goes on with a run until it ends or lingers. -/
def advance (e : Engine) (x : Execution) (phase : Phase) : Phase :=
  e.steps x phase.bound phase

end Engine

end Conveyor
