/-
Hooks observe a run and do not disturb it.

An engine whose hooks leave everything as it was makes the run that it would make without them,
whatever the nodes do, however many hooks there are and whichever of them fail. Two passes are
compared for that, one of the engine and one of the same engine without hooks (`bare`). They never
differ but in the calls that were made, so forgetting the calls (`quiet`) takes each step of the
first to the same step of the second (`Inert.quiet_step`), and the whole pass with it. A run may be
canceled while it goes on: its `Moment`s are the steps that it makes and the cancellations in
between.

The other half is what the hooks hear. That a stage calls every hook once and in order holds of any
hooks at all (`callHooks_log`), and so does the invariant `Heard`: at every moment the calls are
those of the start, of the beginning and the end of every execution that was concluded, and of the
beginning of the one that a node lingers in. Only a step with a node in hand calls a hook
(`step_idle`), which is why a disabled node is passed by in silence.
-/
import Conveyor.Proofs.Engine.Outcome

set_option autoImplicit false

namespace Conveyor

/-! ## The calls of one stage -/

/-- A stage calls every hook once and in order, whatever they do and whichever of them fail. -/
theorem callHooks_log {σ : Type} (stage : Stage) (n : Nat) (actions : List (HookAction σ)) (s : σ) :
    (callHooks stage n actions s).1 = (List.range' n actions.length).map fun k => (k, stage) := by
  induction actions generalizing n s with
  | nil => rfl
  | cons f fs ih => simp only [callHooks, ih, List.length_cons, List.range'_succ, List.map_cons]

/-- The node that a stage is about. -/
def Stage.node? : Stage → Option String
  | nodeStarts node | nodeEnds node _ => some node
  | runStarts _ | runEnds _ => none

/-- The stages of executions: each of them starts, and ends with its task. -/
def Stage.ofTasks (ts : List (String × Task)) : List Stage :=
  ts.flatMap fun u => [nodeStarts u.1, nodeEnds u.1 u.2]

/-- The stages of a run of a workflow: its start, its executions, and its end. -/
def Stage.ofRun (workflow : String) (ts : List (String × Task)) (status : RunStatus) : List Stage :=
  runStarts workflow :: (ofTasks ts ++ [runEnds status])

/-- A stage of a run that is about a node belongs to one of its executions. -/
theorem Stage.mem_ofRun {workflow : String} {ts : List (String × Task)} {status : RunStatus}
    {stage : Stage} {node : String} (mem : stage ∈ ofRun workflow ts status)
    (about : stage.node? = some node) :
    ∃ u ∈ ts, u.1 = node := by
  rcases List.mem_cons.1 mem with rfl | mem
  · simp only [node?, reduceCtorEq] at about
  rcases List.mem_append.1 mem with execution | last
  · obtain ⟨u, hu, execution⟩ := List.mem_flatMap.1 execution
    refine ⟨u, hu, ?_⟩
    rcases List.mem_pair.1 execution with rfl | rfl
    · exact Option.some.inj about
    · exact Option.some.inj about
  · obtain rfl := List.mem_singleton.1 last
    simp only [node?, reduceCtorEq] at about

/-! ## Runs without the calls that were made -/

/-- A pass without the calls that were made. -/
def Pass.quiet (p : Pass) : Pass := { p with log := [] }

/-- A phase without the calls that were made. -/
def Phase.quiet : Phase → Phase
  | ready p => ready p.quiet
  | lingering p n entry r => lingering p.quiet n entry r
  | stopped p canceled => stopped p.quiet canceled
  | broken message => broken message

/-- An ending without the calls that were made. -/
def Engine.Ending.quiet : Engine.Ending → Engine.Ending
  | run r _ => run r []
  | broken message => broken message
  | lingering => lingering

theorem Phase.quiet_cancel (φ : Phase) : φ.cancel.quiet = φ.quiet.cancel := by
  cases φ <;> rfl

theorem Phase.bound_quiet (φ : Phase) : φ.quiet.bound = φ.bound := by
  cases φ <;> rfl

/-- The stage of a node that has started and has not ended yet. -/
def Phase.opened : Phase → List Stage
  | lingering _ n _ _ => [.nodeStarts n.name]
  | ready _ | stopped .. | broken _ => []

namespace Engine

variable {e : Engine} {x : Execution} {φ φ₀ : Phase} {p q : Pass} {n : Node} {en : Entry}
  {w : Workflow} {r : Request} {h : List Entry} {ts : List (String × Task)}

/-- The calls of a stage: of all hooks, in the order in which they were registered. -/
def call (e : Engine) (stage : Stage) : HookLog :=
  (List.range e.hooks.length).map fun k => (k, stage)

/-- The calls of a stage are added to those that were made. -/
theorem log_callHooks (e : Engine) (p : Pass) (stage : Stage) (act : Hook → HookAction RunState) :
    (p.callHooks stage (e.hooks.map act)).log = p.log ++ e.call stage := by
  simp only [Pass.callHooks, callHooks_log, List.length_map, call, List.range_eq_range']

/-! ## The engine without its hooks -/

/-- The engine without its hooks. -/
def bare (e : Engine) : Engine := { e with hooks := [] }

theorem Inert.quiet_callHooks (inert : e.Inert) (stage : Stage) (act : Hook → HookAction RunState)
    (still : ∀ k : Hook, k.Silent → ∀ s, (act k s).2 = s) (p : Pass) :
    (p.callHooks stage (e.hooks.map act)).quiet = p.quiet.callHooks stage
      (e.bare.hooks.map act) := by
  have same := inert.silent.callHooks stage act still p.state
  simp only [Pass.callHooks, Pass.quiet, same]
  rfl

theorem Inert.quiet_record (inert : e.Inert) (p : Pass) (n : Node) (t : Task) :
    (e.record p n t).quiet = e.bare.record p.quiet n t :=
  inert.quiet_callHooks (.nodeEnds n.name t) (fun k => k.nodeEnds n.name t)
    (fun _ silent => silent.nodeEnds n.name t)
    { p with state := p.state.recorded n.name t, nextIndex := p.nextIndex + 1 }

theorem quiet_pause (e : Engine) (p : Pass) (till : Option Time.Instant) :
    (e.pause p till).quiet = e.bare.pause p.quiet till := by
  cases till with
  | none => rfl
  | some t =>
    cases later : e.now.lt t with
    | true => simp only [pause, bare, later, if_true, Phase.quiet, Pass.quiet]
    | false => simp only [pause, bare, later, Bool.false_eq_true, if_false, Phase.quiet]

theorem Inert.quiet_conclude (inert : e.Inert) (x : Execution) (p : Pass) (n : Node) (en : Entry)
    (r : NodeResult) : (e.conclude x p n en r).quiet = e.bare.conclude x p.quiet n en r := by
  have task : e.bare.taskOf p.quiet en (r.settle n.onError (e.bare.registry.outputs n.type))
      = e.comesTo p n en r := rfl
  have task' : e.taskOf p en (r.settle n.onError (e.registry.outputs n.type))
      = e.comesTo p n en r := rfl
  simp only [conclude, task, task', ← inert.quiet_record]
  cases (e.comesTo p n en r).status with
  | error => rfl
  | success => exact quiet_pause e _ _

theorem Inert.quiet_execute (inert : e.Inert) (x : Execution) (p : Pass) (n : Node) (en : Entry) :
    (e.execute x p n en).quiet = e.bare.execute x p.quiet n en := by
  have started := inert.quiet_callHooks (.nodeStarts n.name) (fun k => k.nodeStarts n.name)
    (fun _ silent => silent.nodeStarts n.name) p
  simp only [execute, ← started]
  set p₁ := p.callHooks (.nodeStarts n.name) (e.hooks.map fun k => k.nodeStarts n.name)
  have attempt : e.bare.attempt x p₁.quiet.state n en = e.attempt x p₁.state n en := rfl
  rw [attempt]
  cases e.attempt x p₁.state n en with
  | returns r => exact inert.quiet_conclude x p₁ n en r
  | cancelsRun r => exact inert.quiet_conclude x { p₁ with canceled := true } n en r
  | lingers r => rfl
  | breaks message => rfl

theorem Inert.quiet_take (inert : e.Inert) (x : Execution) (p : Pass) (en : Entry) :
    (e.take x p en).quiet = e.bare.take x p.quiet en := by
  cases allowed : p.left with
  | zero =>
    have allowed' : p.quiet.left = 0 := allowed
    simp only [take, allowed, allowed']
    rfl
  | succ left =>
    have allowed' : p.quiet.left = left + 1 := allowed
    cases node : x.graph.node? en.node with
    | none =>
      rw [take_unknown allowed node, take_unknown allowed' node]
      rfl
    | some n =>
      cases status : n.disabled with
      | true =>
        rw [take_bypass allowed node status, take_bypass allowed' node status]
        rfl
      | false =>
        rw [take_execute allowed node status, take_execute allowed' node status]
        exact inert.quiet_execute x { p with left := left } n en

/-- **Without the calls, a step is the step that is made without hooks.** -/
theorem Inert.quiet_step (inert : e.Inert) (x : Execution) (φ : Phase) :
    (e.step x φ).quiet = e.bare.step x φ.quiet := by
  -- A step looks at the token and the stack, neither of which records calls; so the bare engine
  -- takes the same branch.
  cases φ with
  | ready p =>
    cases going : p.canceled with
    | true =>
      have going' : p.quiet.canceled = true := going
      simp only [step, Phase.quiet, going, going', if_true]
    | false =>
      have going' : p.quiet.canceled = false := going
      cases top : p.state.agenda.stack with
      | nil =>
        have top' : p.quiet.state.agenda.stack = [] := top
        rw [Phase.quiet, step_done going top, step_done going' top']
        rfl
      | cons en rest =>
        have top' : p.quiet.state.agenda.stack = en :: rest := top
        rw [Phase.quiet, step_take going top, step_take going' top']
        exact inert.quiet_take x _ en
  | lingering p n en r =>
    cases canceled : p.canceled with
    | true =>
      have canceled' : p.quiet.canceled = true := canceled
      simp only [step, Phase.quiet, canceled, canceled', if_true]
      exact inert.quiet_conclude x p n en r
    | false =>
      have canceled' : p.quiet.canceled = false := canceled
      simp only [step, Phase.quiet, canceled, canceled', Bool.false_eq_true, if_false]
  | stopped p c => rfl
  | broken m => rfl

theorem Inert.quiet_steps (inert : e.Inert) (x : Execution) (k : Nat) (φ : Phase) :
    (e.steps x k φ).quiet = e.bare.steps x k φ.quiet := by
  induction k generalizing φ with
  | zero => rfl
  | succ k ih => rw [steps, steps, ih, inert.quiet_step]

theorem Inert.quiet_begin (inert : e.Inert) (x : Execution) (s : RunState) (canceled : Bool) :
    (e.begin x s canceled).quiet = e.bare.begin x s canceled := by
  have same :=
    inert.silent.callHooks (.runStarts x.graph.workflow.id) (fun k => k.runStarts x.graph.workflow)
    (fun _ silent => silent.runStarts x.graph.workflow) s
  simp only [begin, Phase.quiet, Pass.quiet, same]
  rfl

theorem Inert.quiet_ending (inert : e.Inert) (x : Execution) (φ : Phase) :
    (e.ending x φ).quiet = e.bare.ending x φ.quiet := by
  have advanced : e.bare.advance x φ.quiet = (e.advance x φ).quiet := by
    rw [advance, advance, φ.bound_quiet, inert.quiet_steps]
  rw [ending, ending, advanced]
  cases e.advance x φ with
  | ready p => rfl
  | lingering p n en r => rfl
  | stopped p c => exact congrArg (fun run => Ending.run run []) (inert.finish x p c)
  | broken m => rfl

/-! ## Runs that are canceled while they go on -/

/-- What happens to a pass at a moment: it makes a step, or it is canceled. -/
inductive Moment where
  | step
  | cancel
  deriving DecidableEq

/-- Where a pass stands after some moments. -/
def after (e : Engine) (x : Execution) : List Moment → Phase → Phase
  | [], φ => φ
  | .step :: ms, φ => e.after x ms (e.step x φ)
  | .cancel :: ms, φ => e.after x ms φ.cancel

/-- Does what it is asked for; the pass has these moments first, and goes on undisturbed then. -/
def performAlong (e : Engine) (w : Workflow) (r : Request) (canceled : Bool) (ms : List Moment) :
    Except EngineError Ending := do
  let (x, s) ← e.prepare w r
  return e.ending x (e.after x ms (e.begin x s canceled))

theorem Inert.quiet_after (inert : e.Inert) (x : Execution) (ms : List Moment) (φ : Phase) :
    (e.after x ms φ).quiet = e.bare.after x ms φ.quiet := by
  induction ms generalizing φ with
  | nil => rfl
  | cons m ms ih =>
    cases m with
    | step => rw [after, after, ih, inert.quiet_step]
    | cancel => rw [after, after, ih, φ.quiet_cancel]

theorem Inert.quiet_performAlong (inert : e.Inert) (w : Workflow) (r : Request) (canceled : Bool)
    (ms : List Moment) :
    (e.performAlong w r canceled ms).map Ending.quiet = e.bare.performAlong w r canceled ms := by
  have prepared : e.bare.prepare w r = e.prepare w r := prepare_congr (fun _ => rfl) rfl w r
  rw [performAlong, performAlong, prepared]
  cases e.prepare w r with
  | error cause => rfl
  | ok found =>
    obtain ⟨x, s⟩ := found
    have same := inert.quiet_ending x (e.after x ms (e.begin x s canceled))
    rw [inert.quiet_after, inert.quiet_begin] at same
    exact congrArg Except.ok same

/-- The moments of a pass leave a trail. -/
theorem Trail.after (trail : Trail e x φ₀ h ts φ) (ms : List Moment) :
    ∃ h' ts', Trail e x φ₀ h' ts' (e.after x ms φ) := by
  induction ms generalizing h ts φ with
  | nil => exact ⟨h, ts, trail⟩
  | cons m ms ih =>
    cases m with
    | step => exact ih trail.step
    | cancel => exact ih trail.cancel

/-- A run that is given back was made by a pass that left a trail, and the log is what it ended
with. -/
theorem trail_of_performAlong {canceled : Bool} {ms : List Moment} {run : Run} {log : HookLog}
    (performs : e.performAlong w r canceled ms = .ok (.run run log)) : ∃ x s h ts p c,
      e.prepare w r = .ok (x, s) ∧ Trail e x (e.begin x s canceled) h ts (.stopped p c) ∧
      run = (e.finish x p c).1 ∧ log = (e.finish x p c).2 := by
  obtain ⟨⟨x, s⟩, prepared, ends⟩ := ok_of_bind performs
  have start : Trail e x (e.begin x s canceled) [] [] (e.begin x s canceled) := .refl
  obtain ⟨h, ts, trail⟩ := start.after ms
  obtain ⟨h, ts, p, c, trail, made, told⟩ := trail.of_ending (Except.ok.inj ends)
  exact ⟨x, s, h, ts, p, c, prepared, trail, made, told⟩

/-! ## What hooks hear -/

/-- At a phase the calls are those of the start of the run, of the executions that were concluded,
and of the one that has not ended. All of them are of nodes that are enabled. -/
structure Heard (e : Engine) (w : Workflow) (ts : List (String × Task)) (φ : Phase) : Prop where
  log : ∀ p, φ.pass? = some p →
    p.log = (.runStarts w.id :: (Stage.ofTasks ts ++ φ.opened)).flatMap e.call
  held : ∀ {q n en r}, φ = .lingering q n en r → n ∈ w.nodes ∧ n.disabled = false
  enabled : ∀ u ∈ ts, ∃ n ∈ w.nodes, n.name = u.1 ∧ n.disabled = false

/-- A look at the stack that puts no node in hand calls no hook. -/
theorem Unhanded.log (unhanded : Unhanded e x p φ) :
    φ.opened = [] ∧ φ.pass?.map Pass.log = some p.log := by
  cases unhanded with
  | canceled => exact ⟨rfl, rfl⟩
  | empty => exact ⟨rfl, rfl⟩
  | refused => exact ⟨rfl, rfl⟩
  | unknown => exact ⟨rfl, rfl⟩
  | bypassed => exact ⟨rfl, rfl⟩

/-- A step with no node in hand calls no hook, and leaves no execution open. -/
theorem step_idle (idle : e.hand? x φ = none) : φ.opened = [] ∧ (e.step x φ).opened = [] ∧
    (e.step x φ).pass?.map Pass.log = φ.pass?.map Pass.log := by
  cases φ with
  | ready p => exact ⟨rfl, (unhanded_step idle).log⟩
  | lingering p n en r => simp only [hand?, reduceCtorEq] at idle
  | stopped p c => exact ⟨rfl, rfl, rfl⟩
  | broken m => exact ⟨rfl, rfl, rfl⟩

/-- A conclusion tells the hooks of the task, and nothing else. -/
theorem log_conclude (e : Engine) (x : Execution) (q : Pass) (n : Node) (en : Entry)
    (result : NodeResult) : (e.conclude x q n en result).opened = [] ∧
    ∀ p, (e.conclude x q n en result).pass? = some p →
      p.log = q.log ++ e.call (.nodeEnds n.name (e.comesTo q n en result)) := by
  -- Besides the task the conclusion writes nothing into the log, whichever way it goes.
  set t := e.comesTo q n en result
  have told : (e.record q n t).log = q.log ++ e.call (.nodeEnds n.name t) :=
    log_callHooks e { q with state := q.state.recorded n.name t, nextIndex := q.nextIndex + 1 } _ _
  have conclusion := e.conclusion x q n en result
  generalize e.conclude x q n en result = φ at conclusion
  cases conclusion with
  | failed message status =>
    refine ⟨rfl, fun p hp => ?_⟩
    obtain rfl := Option.some.inj hp
    exact told
  | paused status asks later pass =>
    refine ⟨rfl, fun p hp => ?_⟩
    obtain rfl := Option.some.inj hp
    rw [pass]
    exact told
  | goes status =>
    refine ⟨rfl, fun p hp => ?_⟩
    obtain rfl := Option.some.inj hp
    exact told

/-- The node in hand is enabled, and its start is the last that the hooks have heard of. -/
theorem Heard.hand (heard : Heard e x.graph.workflow ts φ) (hand : e.hand? x φ = some (q, n, en)) :
    q.log = (.runStarts x.graph.workflow.id :: (Stage.ofTasks ts ++ [.nodeStarts n.name])).flatMap
      e.call ∧ n ∈ x.graph.workflow.nodes ∧ n.disabled = false := by
  obtain ⟨p, rest, left, rfl, -, -, -, node, enabled, rfl⟩ | ⟨r, rfl⟩ := hand?_cases hand
  · refine ⟨?_, Graph.mem_of_node? node, enabled⟩
    have before := heard.log p rfl
    rw [enter, log_callHooks, before, Phase.opened, List.append_nil, ← List.cons_append,
      List.flatMap_append, List.flatMap_singleton]
  · exact ⟨heard.log q rfl, heard.held rfl⟩

/-- An execution that is concluded is heard of to its end. -/
theorem Heard.conclude (heard : Heard e x.graph.workflow ts φ)
    (hand : e.hand? x φ = some (q, n, en)) (result : NodeResult) (q' : Pass)
    (log : q'.log = q.log) :
    Heard e x.graph.workflow (ts ++ [(n.name, e.comesTo q' n en result)])
    (e.conclude x q' n en result) := by
  obtain ⟨before, known, enabled⟩ := heard.hand hand
  obtain ⟨opened, told⟩ := log_conclude e x q' n en result
  refine ⟨fun p hp => ?_, fun lingers => ?_, fun u hu => ?_⟩
  · rw [told p hp, log, before, opened, List.append_nil]
    simp only [Stage.ofTasks, List.flatMap_append, List.flatMap_cons, List.flatMap_nil,
      List.append_assoc, List.append_nil]
  · simp only [lingers, Phase.opened, reduceCtorEq] at opened
  · rcases List.mem_append.1 hu with old | new
    · exact heard.enabled u old
    · rw [List.mem_singleton.1 new]
      exact ⟨n, known, rfl, enabled⟩

/-- **Every step calls the hooks for what it does.** -/
theorem Heard.step (heard : Heard e x.graph.workflow ts φ) :
    Heard e x.graph.workflow (ts ++ (e.concludes? x φ).toList) (e.step x φ) := by
  cases hand : e.hand? x φ with
  | none =>
    -- No node is in hand, so nothing concludes and the log stays as it is.
    have none : e.concludes? x φ = none := by
      simp only [concludes?, hand, Option.bind_eq_bind, Option.bind_none]
    obtain ⟨closed, closed', log⟩ := step_idle hand
    rw [none, Option.toList_none, List.append_nil]
    refine ⟨fun p hp => ?_, fun lingers => ?_, heard.enabled⟩
    · rw [hp, Option.map_some, eq_comm, Option.map_eq_some_iff] at log
      obtain ⟨q, hq, same⟩ := log
      rw [← same, heard.log q hq, closed, closed']
    · simp only [lingers, Phase.opened, reduceCtorEq] at closed'
  | some found =>
    obtain ⟨q, n, en⟩ := found
    have steps := step_hand hand
    simp only [concludes?, hand, Option.bind_eq_bind, Option.bind_some, steps]
    cases e.goesOn x q n en φ with
    | returns r => exact heard.conclude hand r q rfl
    | cancelsRun r => exact heard.conclude hand r { q with canceled := true } rfl
    -- The node lingers: it has begun, and its end is told when the run is canceled.
    | lingers r =>
      obtain ⟨before, node⟩ := heard.hand hand
      simp only [Option.toList_none, List.append_nil]
      refine ⟨fun p hp => ?_, fun lingers => ?_, heard.enabled⟩
      · obtain rfl := Option.some.inj hp
        exact before
      · obtain ⟨-, rfl, -, -⟩ := Phase.lingering.inj lingers
        exact node
    | breaks message =>
      simp only [Option.toList_none, List.append_nil]
      refine ⟨fun p hp => absurd hp (Option.some_ne_none p).symm, fun lingers => ?_, heard.enabled⟩
      simp only [reduceCtorEq] at lingers

theorem Heard.cancel (heard : Heard e w ts φ) : Heard e w ts φ.cancel := by
  cases φ with
  | ready p =>
    refine ⟨fun p' hp => ?_, nofun, heard.enabled⟩
    obtain rfl := Option.some.inj hp
    exact heard.log p rfl
  | lingering p n en r =>
    refine ⟨fun p' hp => ?_, fun lingers => ?_, heard.enabled⟩
    · obtain rfl := Option.some.inj hp
      exact heard.log p rfl
    · obtain ⟨-, rfl, -, -⟩ := Phase.lingering.inj lingers
      exact heard.held rfl
  | stopped p c => exact heard
  | broken m => exact heard

/-- **At every moment the hooks have heard of all that was executed.** -/
theorem Trail.heard {s : RunState} {canceled : Bool}
    (trail : Trail e x (e.begin x s canceled) h ts φ) :
    Heard e x.graph.workflow ts φ := by
  induction trail with
  | refl =>
    refine ⟨fun p hp => ?_, nofun, nofun⟩
    obtain rfl := Option.some.inj hp
    simp only [begin, callHooks_log, List.length_map, call, List.range_eq_range', Phase.opened,
      Stage.ofTasks, List.flatMap_cons, List.flatMap_nil, List.append_nil]
  | step _ ih => exact ih.step
  | cancel _ ih => exact ih.cancel

/-- The calls of a whole pass: the run has the status that the pass has come to. -/
theorem Heard.finish {c : Bool} (heard : Heard e x.graph.workflow ts (.stopped p c)) :
    (e.finish x p c).2
      = (Stage.ofRun x.graph.workflow.id ts (e.runOf x p.state c).status).flatMap e.call := by
  have last : (e.finish x p c).2 = p.log ++ (callHooks (.runEnds (e.runOf x p.state c).status) 0
      (e.hooks.map fun k => k.runEnds x.graph.workflow) (e.runOf x p.state c)).1 := rfl
  rw [last, callHooks_log, heard.log p rfl, List.length_map, ← List.range_eq_range']
  simp only [Stage.ofRun, Phase.opened, call, List.flatMap_cons, List.flatMap_append,
    List.flatMap_nil, List.append_nil, List.append_assoc]

/-- The hooks are told of executions of enabled nodes only. -/
theorem Heard.awake {stage : Stage} {status : RunStatus} (heard : Heard e x.graph.workflow ts φ)
    (known : n ∈ x.graph.workflow.nodes) (mem : stage ∈ Stage.ofRun x.graph.workflow.id ts status)
    (about : stage.node? = some n.name) : n.disabled = false := by
  obtain ⟨u, hu, same⟩ := Stage.mem_ofRun mem about
  obtain ⟨m, hm, name, enabled⟩ := heard.enabled u hu
  rwa [List.inj_on_of_nodup_map x.graph.names_nodup known hm (name.trans same).symm]

/-- **Hooks observe a run and do not disturb it.** Take any number of hooks that leave what they are
shown as it was, and may fail or not. Whatever is asked for, and whenever the run is canceled, the
pass ends as it ends without hooks, with the same run. If it makes a run, the hooks were called at
the start of the run, at the beginning and, with the task on record, at the end of each execution
that the pass has put on record, one after another, and at the end of the run; each time all of
them, in the order in which they were registered. No call is about a disabled node. -/
theorem hooks_observe (inert : e.Inert) (w : Workflow) (r : Request) (canceled : Bool)
    (ms : List Moment) :
    (e.performAlong w r canceled ms).map Ending.quiet = e.bare.performAlong w r canceled ms ∧
    ∀ run log, e.performAlong w r canceled ms = .ok (.run run log) → ∃ ts : List (String × Task),
      run.state.tasks = r.tasks.recordAll ts ∧
      ts.map (fun u => u.2.index) = List.range' r.tasks.nextIndex ts.length ∧
      log = (Stage.ofRun w.id ts run.status).flatMap e.call ∧
      ∀ n ∈ w.nodes, n.disabled = true → ∀ c ∈ log, c.2.node? ≠ some n.name := by
  refine ⟨inert.quiet_performAlong w r canceled ms, fun run log performs => ?_⟩
  obtain ⟨x, s, h, ts, p, c, prepared, trail, rfl, rfl⟩ := trail_of_performAlong performs
  have record := Completes.tasks inert.silent (.intro prepared trail)
  have heard := trail.heard
  obtain ⟨graph, -⟩ := prepare_graph prepared
  obtain rfl := workflow_of_graph graph
  have log := heard.finish
  rw [← inert.finish] at log
  refine ⟨ts, record.1, record.2, log, fun n known disabled call mem about => ?_⟩
  rw [log] at mem
  obtain ⟨stage, hstage, called⟩ := List.mem_flatMap.1 mem
  obtain ⟨k, -, rfl⟩ := List.mem_map.1 called
  exact absurd disabled (by rw [heard.awake known hstage about]; exact Bool.false_ne_true)

end Engine

/-! ## The detour, observed by a hook that always fails and by one that does nothing -/

namespace Detour

/-- Fails and changes nothing. -/
def refuse {σ : Type} : HookAction σ := fun s => (.error "Not now", s)

/-- Fails at every stage. -/
def grumbler : Hook where
  runStarts _ := refuse
  nodeStarts _ := refuse
  nodeEnds _ _ := refuse
  runEnds _ := refuse

/-- The engine with two hooks. -/
def observed : Engine := { engine NodeType.noOp with hooks := [grumbler, {}] }

theorem inert : observed.Inert := by
  intro k hk
  rcases List.mem_pair.1 hk with rfl | rfl
  · exact ⟨fun _ _ => rfl, fun _ _ => rfl, fun _ _ _ => rfl, fun _ _ => rfl⟩
  · exact ⟨fun _ _ => rfl, fun _ _ => rfl, fun _ _ _ => rfl, fun _ _ => rfl⟩

end Detour

/-- The run executes Start and J, and both hooks are told of it, although the first one fails each
time. A is passed by in silence. -/
theorem detour_observed : ∃ run log,
    Detour.observed.performAlong Detour.workflow (.start "run" .manual (some "Start") none) false
      [.step, .step]
      = .ok (.run run log) ∧
    Detour.observed.bare.performAlong Detour.workflow
      (.start "run" .manual (some "Start") none) false [.step, .step]
      = .ok (.run run []) ∧
    log.map (fun c => (c.1, c.2.node?)) = [(0, none), (1, none), (0, some "Start"),
      (1, some "Start"), (0, some "Start"), (1, some "Start"), (0, some "J"), (1, some "J"),
      (0, some "J"), (1, some "J"), (0, none), (1, none)] ∧
    run.status = .success ∧ ∃ ts : List (String × Task), run.state.tasks = RunData.recordAll [] ts ∧
      log = (Stage.ofRun "detour" ts .success).flatMap Detour.observed.call := by
  -- What the run comes to is evaluated; what the hooks are told follows from it.
  obtain ⟨run, log, performs, calls, status⟩ : ∃ run log,
      Detour.observed.performAlong Detour.workflow (.start "run" .manual (some "Start") none) false
        [.step, .step]
        = .ok (.run run log) ∧
      log.map (fun c => (c.1, c.2.node?)) = [(0, none), (1, none), (0, some "Start"),
        (1, some "Start"), (0, some "Start"), (1, some "Start"), (0, some "J"), (1, some "J"),
        (0, some "J"), (1, some "J"), (0, none), (1, none)] ∧ run.status = .success :=
        ⟨_, _, rfl, by decide, rfl⟩
  obtain ⟨same, heard⟩ := Engine.hooks_observe Detour.inert Detour.workflow
    (.start "run" .manual (some "Start") none) false [.step, .step]
  obtain ⟨ts, tasks, -, told, -⟩ := heard run log performs
  rw [performs] at same
  rw [status] at told
  exact ⟨run, log, performs, same.symm, calls, status, ts, tasks, told⟩

end Conveyor
