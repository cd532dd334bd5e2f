/-
Pausing and resuming a run changes nothing but when it goes on.

A pass keeps three things beside the state of the run: the number of the next task, how many entries
it may still take, and whether it was canceled. All of them are gone when the run pauses. The number
of the next task comes back, since it is one above those of the tasks on record at every moment of a
run (`Steady`). The allowance starts afresh, so a run that is resumed may take no fewer entries than
one that was not interrupted.

The run that was not interrupted is the run of the same engine whose nodes never ask for a pause.
Each step of it is matched by a step of a pass that honours pauses (`Follows`): both go on, both
stop in the same state, or the pass pauses in the state the other one goes on with. In the last case
the host resumes it, at once or from the record of the run, and the new pass stands again where the
other run stands.

Passes that are made at different moments note different times on their tasks. States are compared
without these times (`RunState.untimed`), which no node is to look at.
-/
import Conveyor.Proofs.Engine.History
import Conveyor.Proofs.Engine.Progress
import Conveyor.Run.Record

set_option autoImplicit false

namespace Conveyor

/-! ## Nodes that never ask for a pause -/

/-- The result without what it says of a pause. -/
def NodeResult.unpaused : NodeResult → NodeResult
  | paused ports _ => output ports
  | r => r

/-- The execution without what it says of a pause. -/
def Attempt.unpaused : Attempt → Attempt
  | returns r => returns r.unpaused
  | cancelsRun r => cancelsRun r.unpaused
  | lingers r => lingers r.unpaused
  | breaks message => breaks message

/-- The node type whose nodes do the same and never ask for a pause. -/
def NodeType.unpaused (t : NodeType) : NodeType :=
  { t with execute := fun i => (t.execute i).unpaused }

/-- The engine that ignores what nodes say of a pause. -/
def Engine.unpaused (e : Engine) : Engine :=
  { e with registry := e.registry.map fun p => (p.1, p.2.unpaused) }

/-- What is recorded of a result does not depend on the pause it asks for. -/
theorem NodeResult.settle_unpaused (r : NodeResult) (policy : ErrorPolicy) (regular : Nat) :
    r.unpaused.settle policy regular = { r.settle policy regular with till := none } := by
  cases r with
  | output ports => rfl
  | triggered ports => rfl
  | paused ports till => rfl
  | failed errors => cases policy <;> rfl

/-! ## States but for the times of their tasks -/

namespace RunState

/-- The state without when its tasks began and how long they took. -/
def untimed (s : RunState) : RunState := { s with tasks := s.tasks.untimed }

variable {s t : RunState} (same : s.untimed = t.untimed)
include same

theorem error_of_untimed : s.error = t.error := by
  have error := congrArg RunState.error same
  exact error

theorem agenda_of_untimed : s.agenda = t.agenda := by
  have agenda := congrArg RunState.agenda same
  exact agenda

theorem waitTill_of_untimed : s.waitTill = t.waitTill := by
  have till := congrArg RunState.waitTill same
  exact till

theorem untimed_agenda {a b : Agenda} (agendas : a = b) :
    ({ s with agenda := a } : RunState).untimed = ({ t with agenda := b } : RunState).untimed :=
  agendas ▸ congrArg (fun u : RunState => { u with agenda := a }) same

theorem untimed_error (err : Option RunError) :
    ({ s with error := err } : RunState).untimed = ({ t with error := err } : RunState).untimed :=
  congrArg (fun u : RunState => { u with error := err }) same

theorem untimed_waitTill (till : Option Time.Instant) :
    ({ s with waitTill := till } : RunState).untimed
      = ({ t with waitTill := till } : RunState).untimed :=
  congrArg (fun u : RunState => { u with waitTill := till }) same

theorem nextIndex_of_untimed : s.tasks.nextIndex = t.tasks.nextIndex := by
  rw [← s.tasks.nextIndex_untimed, ← t.tasks.nextIndex_untimed]
  exact congrArg (fun u : RunState => u.tasks.nextIndex) same

/-- Tasks that differ in their times are recorded alike. -/
theorem untimed_recorded (node : String) {u v : Task} (alike : u.untimed = v.untimed) :
    (s.recorded node u).untimed = (t.recorded node v).untimed := by
  have tasks : s.tasks.untimed = t.tasks.untimed := congrArg RunState.tasks same
  have recorded : (s.tasks.record node u).untimed = (t.tasks.record node v).untimed := by
    rw [RunData.untimed_record, RunData.untimed_record, tasks, alike]
  have rest : ({ s.untimed with tasks := (s.tasks.record node u).untimed, lastNode := some node } :
      RunState) =
      { t.untimed with tasks := (t.tasks.record node v).untimed, lastNode := some node } := by
    rw [same, recorded]
  exact rest

end RunState

/-- The execution of a run that was started at another moment. -/
def Execution.since (x : Execution) (start : Time.Instant) : Execution :=
  { x with startedAt := start }

namespace Engine

/-! ## The engine at other moments -/

/-- An engine is another one at another time: what it knows of its node types and what it allows is
the same, its hooks are silent, and its nodes do the same in the same state, whenever the tasks on
record were made. They may tell different moments only for the end of a pause. -/
structure Echoes (f e : Engine) : Prop where
  silent : f.Silent
  registry : f.registry = e.registry
  allowance : f.maxIterations = e.maxIterations
  attempts : ∀ x n en {s t : RunState}, s.untimed = t.untimed →
    (f.attempt x s n en).unpaused = (e.attempt x t n en).unpaused

variable {e f : Engine} {x : Execution}

/-- The engine without pauses executes the same and ignores the pause. -/
theorem attempt_unpaused (e : Engine) (x : Execution) (s : RunState) (n : Node) (en : Entry) :
    e.unpaused.attempt x s n en = (e.attempt x s n en).unpaused := by
  have spec : e.unpaused.registry.spec? = e.registry.spec? := by
    funext name
    simp only [Registry.spec?, unpaused, Named.get?_map, Option.map_map]
    rfl
  have input : e.unpaused.input x s n en = e.input x s n en := by
    simp only [Engine.input, resolver, spec]
    rfl
  simp only [attempt, input]
  simp only [unpaused, Named.get?_map]
  cases Named.get? e.registry n.type with
  | none => rfl
  | some t => rfl

theorem outputs_unpaused (e : Engine) (type : String) :
    e.unpaused.registry.outputs type = e.registry.outputs type := by
  simp only [Registry.outputs, unpaused, Named.get?_map, Option.map_map]
  rfl

theorem startNodes_congr (same : ∀ n, f.startsRuns n = e.startsRuns n) :
    f.startNodes = e.startNodes := by
  funext g startNode
  simp only [startNodes, triggers, same]

/-- What a run begins with depends only on which nodes start runs, and on the moment. -/
theorem prepare_congr (same : ∀ n, f.startsRuns n = e.startsRuns n) (now : f.now = e.now)
    (w : Workflow) (r : Request) : f.prepare w r = e.prepare w r := by
  cases r <;> simp only [prepare, startNodes_congr same, now]

theorem prepare_unpaused (e : Engine) (w : Workflow) (r : Request) :
    e.unpaused.prepare w r = e.prepare w r := by
  refine prepare_congr (fun n => ?_) (show e.unpaused.now = e.now from rfl) w r
  have category : e.unpaused.registry.category? n.type = e.registry.category? n.type := by
    simp only [Registry.category?, unpaused, Named.get?_map, Option.map_map]
    rfl
  simp only [startsRuns, category]

/-- At another moment the same begins, but for when it is said to have started. -/
theorem Echoes.prepare (echoes : f.Echoes e) {w : Workflow} {r : Request} {s : RunState}
    (prepared : e.prepare w r = .ok (x, s)) : ∃ start, f.prepare w r = .ok (x.since start, s) := by
  have starts : f.startNodes = e.startNodes :=
    startNodes_congr fun n => by simp only [startsRuns, echoes.registry]
  cases r with
  | start id mode startNode items =>
    obtain ⟨g, graph, prepared⟩ := ok_of_bind prepared
    obtain ⟨names, found, begins⟩ := ok_of_bind prepared
    obtain ⟨rfl, rfl⟩ := Prod.mk.inj (Except.ok.inj begins)
    refine ⟨f.now, ?_⟩
    simp only [Engine.prepare, graph, starts, found, bind, Except.bind]
    rfl
  | rerun id mode startNode prior =>
    obtain ⟨g, graph, prepared⟩ := ok_of_bind prepared
    obtain ⟨names, found, begins⟩ := ok_of_bind prepared
    obtain ⟨rfl, rfl⟩ := Prod.mk.inj (Except.ok.inj begins)
    refine ⟨f.now, ?_⟩
    simp only [Engine.prepare, graph, starts, found, bind, Except.bind]
    rfl
  | resume run => exact ⟨x.startedAt, prepared⟩

/-! ## Silent hooks -/

theorem Silent.record_state (silent : e.Silent) (p : Pass) (n : Node) (t : Task) :
    (e.record p n t).state = p.state.recorded n.name t :=
  silent.callHooks _ _ (fun _ hook => hook.nodeEnds n.name t) _

theorem Silent.nodeStarts_state (silent : e.Silent) (p : Pass) (name : String) :
    (p.callHooks (.nodeStarts name) (e.hooks.map fun h => h.nodeStarts name)).state = p.state :=
  silent.callHooks _ _ (fun _ hook => hook.nodeStarts name) _

/-- With silent hooks, a run begins with the state it is given. -/
theorem Silent.begin (silent : e.Silent) (x : Execution) (s : RunState) (canceled : Bool) :
    ∃ p, e.begin x s canceled = .ready p ∧ p.state = s ∧ p.nextIndex = s.tasks.nextIndex ∧
      p.left = e.maxIterations ∧ p.canceled = canceled := by
  have same := silent.callHooks (.runStarts x.graph.workflow.id)
    (fun h => h.runStarts x.graph.workflow) (fun _ hook => hook.runStarts x.graph.workflow) s
  exact ⟨_, rfl, same, congrArg (fun s' : RunState => s'.tasks.nextIndex) same, rfl, rfl⟩

/-- With silent hooks, the run that a pass makes is the one before the hooks have seen it, as far as
a later pass can tell. -/
theorem Silent.finish (silent : e.Silent) (x : Execution) (p : Pass) (canceled : Bool) :
    (e.runOf x p.state canceled).Agrees (e.finish x p canceled).1 := by
  refine callHooks_rel Run.Agrees.refl Run.Agrees.trans _ 0 (fun f hf r => ?_) _
  obtain ⟨k, hk, rfl⟩ := List.mem_map.1 hf
  exact (silent k hk).runEnds x.graph.workflow r

/-! ## Single steps -/

section Steps

variable {p : Pass} {en : Entry} {rest : List Entry}

theorem step_done (going : p.canceled = false) (empty : p.state.agenda.stack = []) :
    e.step x (.ready p) = .stopped p false := by
  simp only [step, going, empty, Bool.false_eq_true, if_false]

/-- The next step takes the entry on top. -/
theorem step_take (going : p.canceled = false) (top : p.state.agenda.stack = en :: rest) :
    e.step x (.ready p) = e.take x (p.withAgenda (p.state.withStack rest).agenda) en := by
  simp only [step, going, top, Bool.false_eq_true, if_false]
  rfl

variable {left : Nat} (allowed : p.left = left + 1)
include allowed

theorem take_unknown (node : x.graph.node? en.node = none) :
    e.take x p en = .stopped (({ p with left := left } : Pass).failWith
      ("Node '" ++ en.node ++ "' does not exist in the workflow") en.node) false := by
  simp only [take, allowed, node]

theorem take_bypass {n : Node} (node : x.graph.node? en.node = some n)
    (disabled : n.disabled = true) :
    e.take x p en = bypass x { p with left := left } n en := by
  simp only [take, allowed, node, disabled, if_true]

theorem take_execute {n : Node} (node : x.graph.node? en.node = some n)
    (enabled : n.disabled = false) :
    e.take x p en = e.execute x { p with left := left } n en := by
  simp only [take, allowed, node, enabled, Bool.false_eq_true, if_false]

end Steps

/-! ## Two runs side by side -/

/-- Two passes stand at the same point; the first may take no fewer entries. -/
structure Alike (q p : Pass) : Prop where
  state : q.state.untimed = p.state.untimed
  index : q.nextIndex = p.nextIndex
  canceled : q.canceled = p.canceled
  left : p.left ≤ q.left

/-- A pass that honours pauses keeps up with a run that does not. -/
inductive Follows : Phase → Phase → Prop
  | goes {q p : Pass} (alike : Alike q p) : Follows (.ready q) (.ready p)
  | pauses {q p : Pass} {till : Time.Instant}
      (state : q.state.untimed = ({ p.state with waitTill := some till } : RunState).untimed) :
      Follows (.stopped q false) (.ready p)
  | stops {q p : Pass} (state : q.state.untimed = p.state.untimed)
    (ended : p.state.waitTill = none) :
      Follows (.stopped q false) (.stopped p false)

variable {v : Engine} {p q : Pass} {en : Entry} {n : Node}

/-- Where the run goes on, the pass goes on or pauses. -/
theorem follows_pause (f : Engine) (alike : Alike q p) (till : Option Time.Instant) :
    Follows (f.pause q till) (.ready p) := by
  cases till with
  | none => exact .goes alike
  | some t =>
    simp only [pause]
    split
    · exact .pauses (RunState.untimed_waitTill alike.state (some t))
    · exact .goes alike

/-- After the same result, up to the pause it asks for. -/
theorem follows_conclude (hf : f.Silent) (hv : v.Silent)
    (outputs : v.registry.outputs n.type = f.registry.outputs n.type) (alike : Alike q p)
    (unpaused : p.state.waitTill = none) (r : NodeResult) :
    Follows (f.conclude x q n en r) (v.conclude x p n en r.unpaused) := by
  -- The two conclusions differ in the pause, and the tasks on record in their times only.
  set t := f.taskOf q en (r.settle n.onError (f.registry.outputs n.type)) with ht
  set t' := v.taskOf p en (r.unpaused.settle n.onError (v.registry.outputs n.type)) with ht'
  have settled : r.unpaused.settle n.onError (v.registry.outputs n.type) =
      { r.settle n.onError (f.registry.outputs n.type) with till := none } := by
    rw [NodeResult.settle_unpaused, outputs]
  have task : t.untimed = t'.untimed := by
    rw [ht, ht', settled]
    simp only [taskOf, Task.untimed, alike.index]
  have status : t'.status = t.status := (congrArg Task.status task).symm
  have output : t'.output = t.output := (congrArg Task.output task).symm
  have error : t'.error = t.error := (congrArg Task.error task).symm
  have till : (r.unpaused.settle n.onError (v.registry.outputs n.type)).till = none := by
    rw [settled]
  have state : (f.record q n t).state.untimed = (v.record p n t').state.untimed := by
    rw [hf.record_state, hv.record_state]
    exact RunState.untimed_recorded alike.state n.name task
  simp only [conclude, ← ht, ← ht', status, output, error, till]
  cases t.status with
  | error =>
    refine .stops ?_ ?_
    · exact RunState.untimed_error state _
    · simp only [Pass.failWith, hv.record_state]
      exact unpaused
  | success =>
    have agenda := RunState.agenda_of_untimed state
    have goes : Alike
        ((f.record q n t).withAgenda
          (x.graph.complete (f.record q n t).state.agenda n.name t.output))
        ((v.record p n t').withAgenda
          (x.graph.complete (v.record p n t').state.agenda n.name t.output)) := by
      refine ⟨RunState.untimed_agenda state ?_, congrArg (· + 1) alike.index,
        alike.canceled, alike.left⟩
      rw [agenda]
    exact follows_pause f goes _

theorem isCanceled_conclude (v : Engine) (x : Execution) (p : Pass) (n : Node) (en : Entry)
    (r : NodeResult) : (v.conclude x p n en r).isCanceled = p.canceled := by
  simp only [conclude]
  split
  · rfl
  · simp only [pause]
    split
    · split <;> rfl
    · rfl

/-- A phase from which a run still gets to its end. -/
def Ends (v : Engine) (x : Execution) (φ : Phase) : Prop := ∃ n P c, v.steps x n φ = .stopped P c

/-- A run that is not canceled has no way out of a node that lingers, and none out of one that
breaks down. -/
theorem Ends.ready_or_stopped {φ : Phase} (ends : Ends v x φ) (calm : φ.isCanceled = false) :
    (∃ p, φ = .ready p) ∨ ∃ p c, φ = .stopped p c := by
  obtain ⟨k, P, c, stops⟩ := ends
  cases φ with
  | ready p => exact .inl ⟨p, rfl⟩
  | stopped p c => exact .inr ⟨p, c, rfl⟩
  | lingering p n en r =>
    have rest : v.step x (.lingering p n en r) = .lingering p n en r := by
      simp only [step, show p.canceled = false from calm, Bool.false_eq_true, if_false]
    rw [steps_of_rest rest] at stops
    simp only [reduceCtorEq] at stops
  | broken m =>
    have rest : v.step x (.broken m) = .broken m := rfl
    rw [steps_of_rest rest] at stops
    simp only [reduceCtorEq] at stops

/-- The pass keeps up when a node is executed. -/
theorem follows_execute (hf : f.Silent) (hv : v.Silent)
    (outputs : v.registry.outputs n.type = f.registry.outputs n.type)
    (attempts : ∀ {s t : RunState}, s.untimed = t.untimed →
      v.attempt x t n en = (f.attempt x s n en).unpaused) (alike : Alike q p)
    (unpaused : p.state.waitTill = none) (calm : (v.execute x p n en).isCanceled = false)
    (ends : Ends v x (v.execute x p n en)) :
    Follows (f.execute x q n en) (v.execute x p n en) := by
  have hq := hf.nodeStarts_state q n.name
  have hp := hv.nodeStarts_state p n.name
  revert calm ends
  simp only [execute]
  set q₁ := q.callHooks (.nodeStarts n.name) (f.hooks.map fun h => h.nodeStarts n.name)
  set p₁ := p.callHooks (.nodeStarts n.name) (v.hooks.map fun h => h.nodeStarts n.name)
  have alike₁ : Alike q₁ p₁ :=
    ⟨by rw [hq, hp, alike.state], alike.index, alike.canceled, alike.left⟩
  rw [attempts alike₁.state]
  intro calm ends
  -- The other run is not canceled and comes to its end, so the node has come back with a result.
  cases attempt : f.attempt x q₁.state n en with
  | returns r => exact follows_conclude hf hv outputs alike₁ (by rw [hp]; exact unpaused) r
  | cancelsRun r =>
    rw [attempt, Attempt.unpaused, isCanceled_conclude] at calm
    exact absurd calm.symm Bool.false_ne_true
  | lingers r =>
    rw [attempt, Attempt.unpaused] at calm ends
    rcases ends.ready_or_stopped calm with ⟨_, h⟩ | ⟨_, _, h⟩ <;> simp only [reduceCtorEq] at h
  | breaks m =>
    rw [attempt, Attempt.unpaused] at calm ends
    rcases ends.ready_or_stopped calm with ⟨_, h⟩ | ⟨_, _, h⟩ <;> simp only [reduceCtorEq] at h

/-- **The pass keeps up in every step** that does not exhaust the other run. -/
theorem follows_step (hf : f.Silent) (hv : v.Silent)
    (outputs : ∀ type, v.registry.outputs type = f.registry.outputs type)
    (attempts : ∀ n en {s t : RunState}, s.untimed = t.untimed →
      v.attempt x t n en = (f.attempt x s n en).unpaused) (alike : Alike q p)
    (going : p.canceled = false) (unpaused : p.state.waitTill = none)
    (within : (Phase.ready p).exhausted = false) (calm : (v.step x (.ready p)).isCanceled = false)
    (ends : Ends v x (v.step x (.ready p))) :
    Follows (f.step x (.ready q)) (v.step x (.ready p)) := by
  have going' : q.canceled = false := alike.canceled.trans going
  have agenda := RunState.agenda_of_untimed alike.state
  cases top : p.state.agenda.stack with
  | nil =>
    rw [step_done going top, step_done going' (by rw [agenda, top])]
    exact .stops alike.state unpaused
  | cons en rest =>
    have next := Phase.next?_ready going top
    -- The pass is allowed at least as much as the run without pauses, which is not exhausted here.
    have allowed : p.left ≠ 0 := fun spent =>
      Bool.false_ne_true
        (within.symm.trans (Phase.exhausted_iff.2 ⟨p, rfl, by rw [next]; rfl, spent⟩))
    obtain ⟨left, hleft⟩ := Nat.exists_eq_succ_of_ne_zero allowed
    have more := alike.left
    obtain ⟨left', hleft'⟩ := Nat.exists_eq_succ_of_ne_zero (n := q.left) (by omega)
    rw [step_take going top] at calm ends ⊢
    rw [step_take going' (by rw [agenda, top])]
    set p₁ := p.withAgenda (p.state.withStack rest).agenda
    set q₁ := q.withAgenda (q.state.withStack rest).agenda
    have hp₁ : p₁.left = left + 1 := hleft
    have hq₁ : q₁.left = left' + 1 := hleft'
    have popped : (q.state.withStack rest).agenda = (p.state.withStack rest).agenda :=
      congrArg (fun a : Agenda => { a with stack := rest }) agenda
    have state : q₁.state.untimed = p₁.state.untimed := RunState.untimed_agenda alike.state popped
    have alike₁ : Alike { q₁ with left := left' } { p₁ with left := left } :=
      ⟨state, alike.index, alike.canceled, Nat.le_of_succ_le_succ (hleft ▸ hleft' ▸ more)⟩
    cases node : x.graph.node? en.node with
    | none =>
      rw [take_unknown hp₁ node, take_unknown hq₁ node]
      exact .stops (RunState.untimed_error state _) unpaused
    | some n =>
      cases status : n.disabled with
      | true =>
        rw [take_bypass hp₁ node status, take_bypass hq₁ node status]
        have completed := congrArg (fun a => x.graph.complete a n.name [en.inputs.headD []]) popped
        exact .goes ⟨RunState.untimed_agenda state completed, alike₁.index, alike₁.canceled,
          alike₁.left⟩
      | false =>
        rw [take_execute hp₁ node status] at calm ends ⊢
        rw [take_execute hq₁ node status]
        exact follows_execute hf hv (outputs n.type) (attempts n en) alike₁ unpaused calm
          ends

/-! ## What a resumed pass stands on -/

/-- All that a pass keeps beside the state can be told from the state and from the engine. -/
structure Steady (v : Engine) (p : Pass) : Prop where
  index : p.nextIndex = p.state.tasks.nextIndex
  waitTill : p.state.waitTill = none
  going : p.canceled = false
  allowance : p.left ≤ v.maxIterations

/-- A run stays steady while it goes on. -/
theorem Steady.step (hv : v.Silent) {p' : Pass} (steady : Steady v p)
    (goes : v.step x (.ready p) = .ready p') (going : p'.canceled = false) : Steady v p' := by
  have effect : Effect v x (.ready p) (.ready p') p p' :=
    goes ▸ (turn_step hv.watched x (.ready p)).effect rfl (by rw [goes]; rfl)
  have before := steady.allowance
  -- Of the steps that end with a pass that goes on, only two have taken an entry; each leaves the
  -- next number free.
  cases effect with
  | idle _ state phase =>
    rcases phase with same | stopped
    · exact Phase.ready.inj same ▸ steady
    · simp only [reduceCtorEq] at stopped
  | refused _ _ _ phase => simp only [reduceCtorEq] at phase
  | lingers _ _ _ _ _ _ _ phase => simp only [reduceCtorEq] at phase
  | bypassed _ _ _ _ state index left _ =>
    refine ⟨?_, by rw [state]; exact steady.waitTill, going, by omega⟩
    rw [index, steady.index, state]
  | failed _ _ _ _ _ _ phase => simp only [reduceCtorEq] at phase
  | @completed en n q t s stack till _ _ _ index _ state phase =>
    rcases phase with ⟨_, same, next, left⟩ | ⟨phase, _⟩
    · refine ⟨?_, by rw [state]; exact same.trans steady.waitTill, going, by omega⟩
      rw [next, steady.index, state]
      exact (RunData.nextIndex_record_next n.name (index.trans steady.index)).symm
    · simp only [reduceCtorEq] at phase

end Engine

/-! ## A host that resumes a run -/

/-- A host that resumes a paused run as often as it takes: the engine of each pass, and whether the
run was kept as a record before it. -/
structure Host where
  engine : Nat → Engine
  stores : Nat → Bool

namespace Host

/-- The run that is handed to the pass after a pause. -/
def handed (host : Host) (k : Nat) (run : Run) : Run :=
  if host.stores k then (Record.ofRun run).toRun else run

/-- How a pass ends; the passes after the first one resume the run that the pass before has made. -/
def pass (host : Host) (w : Workflow) (r : Request) : Nat → Except EngineError Engine.Ending
  | 0 => (host.engine 0).perform w r false
  | k + 1 =>
    match host.pass w r k with
    | .ok (.run run _) => (host.engine (k + 1)).perform w (.resume (host.handed (k + 1) run)) false
    | other => other

/-- A record keeps all that a later pass can tell. -/
theorem handed_agrees (host : Host) (k : Nat) (run : Run) : run.Agrees (host.handed k run) := by
  rw [handed]
  split
  · exact ⟨rfl, rfl, rfl, rfl⟩
  · exact .refl run

end Host

namespace Engine

variable {e f v : Engine} {x : Execution} {p q : Pass}

/-- What a run begins with: the graph of its workflow, and a state that is not paused. -/
theorem prepare_graph {w : Workflow} {r : Request} {s : RunState}
    (prepared : e.prepare w r = .ok (x, s)) : w.graph = .ok x.graph ∧ s.waitTill = none := by
  cases r with
  | start id mode startNode items =>
    obtain ⟨graph, names, _, rfl⟩ := prepare_start prepared
    exact ⟨graph, rfl⟩
  | rerun id mode startNode prior =>
    obtain ⟨graph, rfl⟩ := prepare_rerun prepared
    exact ⟨graph, rfl⟩
  | resume run =>
    obtain ⟨_, graph, rfl⟩ := prepare_resume prepared
    exact ⟨graph, rfl⟩

/-- Resuming a run that waits begins with the state of that run. -/
theorem perform_resume {w : Workflow} {run : Run} (waiting : run.status = .waiting)
    (graph : w.graph = .ok x.graph) (id : run.id = x.id) (mode : run.mode = x.mode) :
    f.perform w (.resume run) false = .ok (f.ending (x.since run.startedAt)
      (f.begin x { run.state with waitTill := none } false)) := by
  simp only [perform, prepare, waiting, if_true, graph, bind, Except.bind, pure,
    Except.pure, id, mode]
  rfl

/-- No step of a run looks at when it was started. -/
theorem step_since (f : Engine) (x : Execution) (start : Time.Instant) (φ : Phase) :
    f.step (x.since start) φ = f.step x φ := rfl

theorem ending_step (hf : f.Silent) (x : Execution) (φ : Phase) :
    f.ending x (f.step x φ) = f.ending x φ := by
  simp only [ending, advance_step hf.watched]

/-- A pass that stops makes a run. -/
theorem ending_stopped {c : Bool} {φ : Phase} (hf : f.Silent)
    (rest : f.advance x φ = .stopped q c) :
    ∃ run log, f.ending x φ = .run run log ∧ (f.runOf x q.state c).Agrees run := by
  refine ⟨(f.finish x q c).1, (f.finish x q c).2, ?_, hf.finish x q c⟩
  simp only [ending, rest]

/-- A pass that makes a run has stopped. -/
theorem stopped_of_ending {φ : Phase} {run : Run} {log : HookLog} (hf : f.Silent)
    (ends : f.ending x φ = .run run log) :
    ∃ q c, f.advance x φ = .stopped q c ∧ (f.runOf x q.state c).Agrees run := by
  simp only [ending] at ends
  split at ends
  · rename_i q c stops
    obtain ⟨rfl, rfl⟩ := Ending.run.inj ends
    exact ⟨q, c, stops, hf.finish x q c⟩
  · simp only [reduceCtorEq] at ends
  · simp only [reduceCtorEq] at ends
  · simp only [reduceCtorEq] at ends

/-- A pass that stops with its next step makes a run of what it stops with. -/
theorem ending_of_step {q' : Pass} {c : Bool} {φ : Phase} (hf : f.Silent)
    (stops : f.step x φ = .stopped q' c) :
    ∃ run log, f.ending x φ = .run run log ∧ (f.runOf x q'.state c).Agrees run := by
  refine ending_stopped hf ?_
  rw [← advance_step hf.watched, stops]
  exact steps_of_rest rfl _

/-- **After a pause the next pass goes on from the same state.** A pass that pauses where an
uninterrupted run goes on makes a run that waits; resumed, from the run or from its record, that one
stands where the uninterrupted run does. -/
theorem pass_resumed {host : Host} (echoes : ∀ k, (host.engine k).Echoes e) {w : Workflow}
    {r : Request} (graph : w.graph = .ok x.graph) {p' q' : Pass} {till start : Time.Instant}
    (steady : Steady e.unpaused p')
    (state : q'.state.untimed = ({ p'.state with waitTill := some till } : RunState).untimed)
    {i : Nat} {φ : Phase} (pauses : (host.engine i).step x φ = .stopped q' false)
    (here : host.pass w r i = .ok ((host.engine i).ending (x.since start) φ)) :
    (∃ run log, host.pass w r i = .ok (.run run log) ∧ run.status = .waiting) ∧
      ∃ q'' start, Alike q'' p' ∧
        host.pass w r (i + 1) = .ok
          ((host.engine (i + 1)).ending (x.since start) (.ready q'')) := by
  obtain ⟨run, log, ends, agrees⟩ :=
    ending_of_step (echoes i).silent ((step_since _ x start _).trans pauses)
  have waiting : run.status = .waiting := by
    have paused : q'.state.waitTill = some till := RunState.waitTill_of_untimed state
    rw [agrees.status]
    simp only [runOf, paused, Option.isSome_some, RunStatus.ofOutcome, if_true]
  have handed := host.handed_agrees (i + 1) run
  set s : RunState := { (host.handed (i + 1) run).state with waitTill := none } with hs
  -- What is taken up is the state that the uninterrupted run goes on with, but for the times of its
  -- tasks.
  have resumed : s.untimed = p'.state.untimed := by
    have awake := RunState.untimed_waitTill state none
    rw [hs, handed.state, agrees.state]
    refine awake.trans ?_
    rw [← steady.waitTill]
  obtain ⟨q'', begins, taken, hindex, hleft, hc⟩ := (echoes (i + 1)).silent.begin x s false
  refine ⟨⟨run, log, by rw [here, ends], waiting⟩, q'', (host.handed (i + 1) run).startedAt,
    ⟨by rw [taken, resumed], ?_, hc.trans steady.going.symm, ?_⟩, ?_⟩
  · rw [hindex, steady.index]
    exact RunState.nextIndex_of_untimed resumed
  · rw [hleft, (echoes (i + 1)).allowance]
    exact steady.allowance
  · rw [Host.pass, here, ends, ← begins]
    exact perform_resume (handed.status.trans waiting) graph (handed.id.trans agrees.id)
      (handed.mode.trans agrees.mode)

/-- **A host gets a run to its end.** If a pass stands where the uninterrupted run stands, which
gets to its end in `m` steps, then this pass or a later one ends as that run does, and all passes in
between are paused. -/
theorem pass_follows {host : Host} (silent : e.Silent) (echoes : ∀ k, (host.engine k).Echoes e)
    {w : Workflow} {r : Request} (graph : w.graph = .ok x.graph) {m : Nat} {P : Pass} {c : Bool}
    (stops : e.unpaused.steps x m (.ready p) = .stopped P c)
    (calm : ∀ j, (e.unpaused.steps x j (.ready p)).isCanceled = false ∧
      (e.unpaused.steps x j (.ready p)).exhausted = false)
    (steady : Steady e.unpaused p) (alike : Alike q p) {i : Nat} {start : Time.Instant}
    (here : host.pass w r i = .ok ((host.engine i).ending (x.since start) (.ready q))) :
    c = false ∧ P.state.waitTill = none ∧ ∃ k run log, i ≤ k ∧
      host.pass w r k = .ok (.run run log) ∧ run.state.untimed = P.state.untimed ∧
      run.status = RunStatus.ofOutcome P.state.error.isSome false false false ∧
      ∀ j, i ≤ j → j < k → ∃ run log, host.pass w r j = .ok (.run run log) ∧
        run.status = .waiting := by
  induction m generalizing p q i start with
  | zero => simp only [steps, reduceCtorEq] at stops
  | succ m ih =>
    have hf := (echoes i).silent
    have hv : e.unpaused.Silent := silent
    have follows := follows_step hf hv
      (fun type => by rw [outputs_unpaused, (echoes i).registry])
      (fun n en {s t} same => by rw [attempt_unpaused, (echoes i).attempts x n en same]) alike
        steady.going
      steady.waitTill
      (calm 0).2 (calm 1).1 ⟨m, P, c, stops⟩
    have calm₁ : (e.unpaused.step x (.ready p)).isCanceled = false := (calm 1).1
    rw [steps] at stops
    generalize uninterrupted : e.unpaused.step x (.ready p) = φ at *
    generalize honoured : (host.engine i).step x (.ready q) = ψ at *
    have rest : ∀ j, (e.unpaused.steps x j φ).isCanceled = false ∧
        (e.unpaused.steps x j φ).exhausted = false := by
      intro j
      have := calm (j + 1)
      rwa [steps, uninterrupted] at this
    cases follows with
    | @goes q' p' alike' =>
      -- Both go on: the rest of this pass stands where the rest of the other run stands.
      have there : host.pass w r i = .ok ((host.engine i).ending (x.since start) (.ready q')) := by
        rw [here, ← honoured, ← step_since _ x start, ending_step hf]
      exact ih stops rest (steady.step hv uninterrupted calm₁) alike' there
    | @pauses q' p' till state =>
      -- The next pass stands where the rest of the other run stands.
      have steady' : Steady e.unpaused p' := steady.step hv uninterrupted calm₁
      obtain ⟨waits, q'', start', alike', next⟩ :=
        pass_resumed echoes graph steady' state honoured here
      obtain ⟨hc', hw, k, run', log', hk, hpass, hstate, hstatus, hbetween⟩ :=
        ih stops rest steady' alike' next
      refine ⟨hc', hw, k, run', log', by omega, hpass, hstate, hstatus, fun j hij hjk => ?_⟩
      rcases Nat.eq_or_lt_of_le hij with rfl | hlt
      · exact waits
      · exact hbetween j hlt hjk
    | @stops q' p' state ended =>
      rw [steps_of_rest rfl] at stops
      obtain ⟨rfl, rfl⟩ := Phase.stopped.inj stops
      obtain ⟨run, log, hend, agrees⟩ := ending_of_step hf ((step_since _ x start _).trans honoured)
      refine ⟨rfl, ended, i, run, log, Nat.le_refl i, by rw [here, hend], ?_, ?_,
        fun j hij hji => ?_⟩
      · rw [agrees.state]
        exact state
      · rw [agrees.status]
        simp only [runOf, RunState.error_of_untimed state, RunState.waitTill_of_untimed state,
          ended, Option.isSome_none]
      · omega

/-- **Pauses are transparent.** Let a run of which all pauses are ignored not be canceled, stay
within what the engine allows and get to its end. A host that honours the pauses of the same run and
resumes it after each of them, from the run or from its record, gets to an end as well, with the
same state and status: the same tasks under the same numbers, with what they put out, where it came
from and why they failed, and the same outputs for joins, stack and error. Only the times of the
tasks are those of the passes. -/
theorem pause_transparent (silent : e.Silent) {host : Host} (echoes : ∀ k, (host.engine k).Echoes e)
    {w : Workflow} {r : Request} {s : RunState} (prepared : e.prepare w r = .ok (x, s))
    (calm : ∀ j, (e.unpaused.steps x j (e.unpaused.begin x s false)).isCanceled = false ∧
      (e.unpaused.steps x j (e.unpaused.begin x s false)).exhausted = false)
    {u : Run} {ulog : HookLog} (ends : e.unpaused.perform w r false = .ok (.run u ulog)) :
    ∃ k run log, host.pass w r k = .ok (.run run log) ∧ run.status ≠ .waiting ∧
      run.state.untimed = u.state.untimed ∧ run.status = u.status ∧
      ∀ j, j < k → ∃ run log, host.pass w r j = .ok (.run run log) ∧ run.status = .waiting := by
  have hv : e.unpaused.Silent := silent
  obtain ⟨graph, unpaused⟩ := prepare_graph prepared
  obtain ⟨p, hbegin, hs, hindex, hleft, hc⟩ := hv.begin x s false
  obtain ⟨q, hbegin', hs', hindex', hleft', hc'⟩ := (echoes 0).silent.begin x s false
  obtain ⟨x', s', prepared', ends⟩ := prepare_of_perform ends
  rw [prepare_unpaused, prepared] at prepared'
  obtain ⟨rfl, rfl⟩ := Prod.mk.inj (Except.ok.inj prepared')
  rw [hbegin] at ends
  obtain ⟨P, c, stops, agrees⟩ := stopped_of_ending hv ends
  obtain ⟨start, prepared'⟩ := (echoes 0).prepare prepared
  have here : host.pass w r 0 = .ok ((host.engine 0).ending (x.since start) (.ready q)) := by
    simp only [Host.pass, perform, prepared', bind, Except.bind, pure, Except.pure, ← hbegin']
    rfl
  have steady : Steady e.unpaused p :=
    ⟨by rw [hindex, hs], by rw [hs]; exact unpaused, hc, Nat.le_of_eq hleft⟩
  have alike : Alike q p := by
    refine ⟨by rw [hs', hs], hindex'.trans hindex.symm, hc'.trans hc.symm, ?_⟩
    rw [hleft', hleft, (echoes 0).allowance]
    exact Nat.le_refl _
  rw [hbegin] at calm
  -- From the start on, the host keeps up with the run without pauses until both have come to their
  -- end.
  obtain ⟨rfl, ended, k, run, log, -, hpass, hstate, hstatus, hbetween⟩ :=
    pass_follows silent echoes graph stops calm steady alike here
  refine ⟨k, run, log, hpass, ?_, hstate.trans (congrArg RunState.untimed agrees.state).symm, ?_,
    fun j => hbetween j (Nat.zero_le j)⟩
  · rw [hstatus]
    cases P.state.error.isSome <;> decide
  · rw [hstatus, agrees.status]
    simp only [runOf, ended, Option.isSome_none]

end Engine

/-! ## The detour with pauses -/

namespace Detour

/-- Hands its items on after a pause that never comes to an end. -/
def nap : NodeType where
  spec := { name := "nap", displayName := "Nap" }
  execute i := .returns (.paused [i.mainItems] ⟨100, 0⟩)

/-- A host that resumes the run at any moment; every other time it has kept a record in between. -/
def host : Host where
  engine k := { engine nap with now := ⟨k, 0⟩ }
  stores k := k % 2 == 0

theorem silent {relay : NodeType} : (engine relay).Silent :=
  fun _ hook => absurd hook List.not_mem_nil

theorem echoes (k : Nat) : (host.engine k).Echoes (engine nap) := by
  refine ⟨(silent : (engine nap).Silent), rfl, rfl, fun x n en s t _ => ?_⟩
  have same : (host.engine k).registry = (engine nap).registry := rfl
  simp only [Engine.attempt, same]
  cases h : Named.get? (engine nap).registry n.type with
  | none => rfl
  | some t =>
    have ht : t = nap := by
      simp only [engine, Named.get?_cons, Named.get?_nil] at h
      split at h
      · exact (Option.some.inj h).symm
      · simp only [reduceCtorEq] at h
    rw [ht]
    rfl

end Detour

/-- On the detour two of three nodes ask for a pause, and the host gets to the end of the run. -/
theorem detour_resumed : ∃ u ulog, (Detour.engine Detour.nap).unpaused.perform Detour.workflow
      (.start "run" .manual (some "Start") none) false = .ok (.run u ulog) ∧ u.status = .success ∧
    (∃ run log, Detour.host.pass Detour.workflow (.start "run" .manual (some "Start") none) 0
      = .ok (.run run log) ∧ run.status = .waiting) ∧
    ∃ k run log, Detour.host.pass Detour.workflow (.start "run" .manual (some "Start") none) k
        = .ok (.run run log) ∧ run.status ≠ .waiting ∧ run.state.untimed = u.state.untimed ∧
      run.status = u.status ∧ ∀ j, j < k → ∃ run log, Detour.host.pass Detour.workflow
        (.start "run" .manual (some "Start") none) j = .ok (.run run log) ∧
          run.status = .waiting := by
  -- The run without pauses is at its end after four steps, and stays there.
  have first : ∀ j < 5,
      ((Detour.engine Detour.nap).unpaused.steps Detour.execution j
        ((Detour.engine Detour.nap).unpaused.begin Detour.execution Detour.state false)).isCanceled
        = false ∧
      ((Detour.engine Detour.nap).unpaused.steps Detour.execution j
        ((Detour.engine Detour.nap).unpaused.begin Detour.execution Detour.state false)).exhausted
        = false := by
    decide
  have calm : ∀ j,
      ((Detour.engine Detour.nap).unpaused.steps Detour.execution j
        ((Detour.engine Detour.nap).unpaused.begin Detour.execution Detour.state false)).isCanceled
        = false ∧
      ((Detour.engine Detour.nap).unpaused.steps Detour.execution j
        ((Detour.engine Detour.nap).unpaused.begin Detour.execution Detour.state false)).exhausted
        = false := by
    intro j
    rcases Nat.lt_or_ge j 5 with early | late
    · exact first j early
    · rw [← Nat.add_sub_cancel' (show 4 ≤ j by omega), Engine.steps_add, Engine.steps_of_rest rfl]
      exact first 4 (by decide)
  exact ⟨_, _, rfl, rfl, ⟨_, _, rfl, rfl⟩,
    Engine.pause_transparent Detour.silent Detour.echoes (Detour.prepared _) calm rfl⟩

end Conveyor
