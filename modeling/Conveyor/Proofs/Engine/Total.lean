/-
The loop always comes to an end.

The stack need not become empty: on a cycle, entries are pushed as fast as they are taken, and
disabled nodes hand on what they get without leaving a task. What ends the loop is the limit alone.
`Limit` counts what a pass takes and records; here this is put together with the two other things
that could keep a run from its end. A node that is executed may not come back (`Returns` rules that
out), and an entry may name a node that is not there, or an input port without a list, which the
graph rules out.
-/
import Conveyor.Proofs.Engine.Routing
import Conveyor.Proofs.Engine.Slots

set_option autoImplicit false

namespace Conveyor

/-- No node is waited for, and none has broken down. -/
def Phase.Smooth : Phase → Prop
  | ready _ | stopped .. => True
  | lingering .. | broken _ => False

namespace Engine

variable {e : Engine} {x : Execution} {φ φ₀ : Phase} {p q : Pass} {h : List Entry} {w : Workflow}
  {r : Request} {s : RunState}

/-! ## Nodes that come back -/

/-- Whatever an enabled node is executed with, the execution comes to a result. -/
def Returns (e : Engine) (x : Execution) : Prop :=
  ∀ n ∈ x.graph.workflow.nodes, n.disabled = false → ∀ s en, ∃ r, e.attempt x s n en = .returns r ∨
    e.attempt x s n en = .cancelsRun r

/-- What a run that is ready works on is executed in this step. -/
theorem Works.attempt {en : Entry} {n : Node} {a : Attempt}
    (works : Works e x (.ready p) en n q a) :
    n ∈ x.graph.workflow.nodes ∧ n.disabled = false ∧ a = e.attempt x q.state n en := by
  cases works with
  | taken _ _ _ node enabled => exact ⟨Graph.mem_of_node? node, enabled, rfl⟩

/-- An execution that comes to a result neither waits nor breaks down. -/
theorem Returns.result (returns : e.Returns x) {en : Entry} {n : Node} {a : Attempt}
    (works : Works e x (.ready p) en n q a) : ∃ r, a = .returns r ∨ a = .cancelsRun r := by
  obtain ⟨known, enabled, rfl⟩ := works.attempt
  exact returns n known enabled q.state en

theorem smooth_begin (e : Engine) (x : Execution) (s : RunState) (canceled : Bool) :
    (e.begin x s canceled).Smooth := by
  rw [begin]
  trivial

theorem Returns.step (returns : e.Returns x) (hk : e.Watched) (smooth : φ.Smooth) :
    (e.step x φ).Smooth := by
  have turn := turn_step hk x φ
  generalize e.step x φ = φ' at turn
  cases turn with
  | still => exact smooth
  | ended => trivial
  | refused => trivial
  | bypassed => trivial
  | lingers works =>
    obtain ⟨r, result⟩ := returns.result works
    simp only [reduceCtorEq, or_self] at result
  | breaks works =>
    obtain ⟨r, result⟩ := returns.result works
    simp only [reduceCtorEq, or_self] at result
  | failed => trivial
  | completed => trivial
  | paused => trivial

theorem Leads.smooth (returns : e.Returns x) (hk : e.Watched) (smooth : φ₀.Smooth)
    (run : Leads e x φ₀ h φ) :
    φ.Smooth := by
  induction run with
  | refl => exact smooth
  | step _ ih => exact returns.step hk ih
  | @cancel h φ _ ih => cases φ <;> exact ih

/-- **A run whose nodes come back stops.** -/
theorem Returns.stops (returns : e.Returns x) (hk : e.Watched) (smooth : φ.Smooth) :
    ∃ p c, e.advance x φ = .stopped p c := by
  have rests : e.step x (e.advance x φ) = e.advance x φ := step_steps_of_toGo hk φ.toGo_le_bound
  have smooth' : (e.advance x φ).Smooth := (leads_steps e x φ.bound φ).smooth returns hk smooth
  generalize e.advance x φ = φ' at rests smooth'
  cases φ' with
  -- A run that is ready would have gone on.
  | ready p =>
    have more : 0 < (Phase.ready p).toGo := Nat.succ_pos _
    have closer := toGo_step_lt e x more
    rw [rests] at closer
    exact absurd closer (Nat.lt_irrefl _)
  | stopped p c => exact ⟨p, c, rfl⟩
  | lingering => exact smooth'.elim
  | broken => exact smooth'.elim

/-! ## The end of every pass -/

/-- A moment of a pass from which it comes to its end, and at which all is there that the rest of
the pass needs. -/
structure Bounded (e : Engine) (x : Execution) (h : List Entry) (φ : Phase) : Prop where
  ends : ∃ p c, e.advance x φ = .stopped p c
  taken : h.length ≤ e.maxIterations + 1
  known : ∀ p, φ.pass? = some p → ∀ en ∈ p.state.agenda.stack, ∃ n, x.graph.node? en.node = some n

/-- What a pass has taken and recorded when its run is made. -/
structure Spent (e : Engine) (d : RunData) (h : List Entry) (run : Run) : Prop where
  taken : h.length ≤ e.maxIterations + 1
  tasks : ∃ ts, run.state.tasks = d.recordAll ts ∧ ts.length ≤ e.maxIterations
  /-- A run that has taken one entry too many has failed, and blames the node of this entry. -/
  beyond : e.maxIterations < h.length → run.status = .failed ∧
    ∃ err, run.state.error = some err ∧ e.Overrun h err

theorem Leads.bounded (returns : e.Returns x) (hk : e.Watched) (ready : Ready s x.graph.workflow)
    {canceled : Bool} (run : Leads e x (e.begin x s canceled) h φ) : Bounded e x h φ := by
  have smooth : φ.Smooth := run.smooth returns hk (smooth_begin ..)
  obtain ⟨p, hp⟩ : ∃ p, φ.pass? = some p := by
    cases φ with
    | ready p => exact ⟨p, rfl⟩
    | stopped p c => exact ⟨p, rfl⟩
    | lingering => exact smooth.elim
    | broken => exact smooth.elim
  have within := run.within hk ready hp
  refine ⟨returns.stops hk smooth, within.most, fun p' hp' en hen => ?_⟩
  obtain rfl := Option.some.inj (hp.symm.trans hp')
  exact Option.isSome_iff_exists.1 (Graph.node?_isSome_iff.2 (within.sane.known en hen))

theorem Completes.spent (hk : e.Watched) (genuine : Genuine w r) {ts : List (String × Task)}
    {run : Run} (completes : e.Completes w r h ts run) : Spent e r.tasks h run := by
  obtain ⟨x, p, c, rfl, within, error, tasks, fails⟩ := completes.within hk genuine
  obtain ⟨ts, recorded, -, few⟩ := within.tasks
  refine ⟨within.most, ⟨ts, tasks.trans recorded, few⟩, fun beyond => ?_⟩
  obtain ⟨-, err, blames, overrun⟩ := within.overrun beyond
  exact ⟨fails.2 ⟨err, error.trans blames⟩, err, error.trans blames, overrun⟩

/-- **The loop is total.** Take a workflow whose graph can be built, cyclic or not, and start it
anywhere, rerun it from a node with any tasks of an earlier run, or resume it; as long as its nodes
come back, it makes a run, canceled or not. It takes one entry more than the engine allows at most,
and records no more tasks than are allowed. If it takes that one entry more, the run has failed,
with the error of the engine that names the node of this entry. At no moment is an entry on the
stack whose node is not in the workflow, and whenever the inputs of a node are made, for an entry
with one connection, for a join or from the tasks of an earlier run, every list that is looked for
is there. -/
theorem loop_total (hk : e.Watched) (genuine : Genuine w r) (prepared : e.prepare w r = .ok (x, s))
    (returns : e.Returns x) :
    (∀ canceled, (∃ run log, e.perform w r canceled = .ok (.run run log)) ∧
      ∀ h φ, Leads e x (e.begin x s canceled) h φ → Bounded e x h φ) ∧
    (∀ h ts run, e.Completes w r h ts run → Spent e r.tasks h run) ∧
    (∀ node port items sources,
      single? port items = some (Entry.single node port items sources).inputs) ∧
    (∀ (a : Agenda) node links en, a.join? node links = some en →
      a.joined? links = some en.inputs) ∧
    ∀ tasks node, x.graph.collected? tasks node = some (x.graph.rebuild tasks node).inputs := by
  obtain rfl := workflow_of_graph (prepare_graph prepared).1
  refine ⟨fun canceled => ⟨?_, fun h φ run => run.bounded returns hk (genuine.ready prepared)⟩,
    fun h ts run completes => completes.spent hk genuine, single?_eq,
      fun a node links en => Agenda.joined?_eq,
    x.graph.collected?_eq⟩
  obtain ⟨p, c, stops⟩ := returns.stops hk (smooth_begin e x s canceled)
  rw [perform, prepared]
  refine ⟨(e.finish x p c).1, (e.finish x p c).2, ?_⟩
  show Except.ok (e.ending x (e.begin x s canceled)) = _
  rw [ending, stops]

end Engine

/-- All nodes of the run on which nodes fail come back, the one of an unknown type as well. -/
theorem Mishap.returns : engine.Returns execution := by
  intro n known enabled s en
  have known : n ∈ workflow.nodes := known
  simp only [workflow, List.mem_cons, List.not_mem_nil, or_false] at known
  rcases known with rfl | rfl | rfl
  · exact ⟨_, .inl rfl⟩
  · exact ⟨_, .inl rfl⟩
  · exact ⟨_, .inl rfl⟩

/-- Start keeps its own run going until the fourth entry is taken, where three are allowed. The run
ends there and blames the node of this entry; it has recorded three tasks at most. -/
theorem Mishap.loop_ends : Engine.Bounded engine execution [] first ∧
    ∃ run h ts en ran, engine.Completes workflow request h ts run ∧ h.length = 4 ∧
      h.getLast? = some en ∧ run.status = .failed ∧
      run.state.error = some ⟨engine.limitMessage, some en.node⟩ ∧
      run.state.tasks = request.tasks.recordAll ran ∧ ran.length ≤ 3 := by
  have total := Engine.loop_total watched (.start : Engine.Genuine workflow request) rfl returns
  obtain ⟨run, log, performs, failed⟩ : ∃ run log,
      engine.perform workflow request false = .ok (.run run log) ∧ run.status = .failed :=
      ⟨_, _, rfl, by decide⟩
  obtain ⟨h, ts, completes⟩ := Engine.completes_of_perform performs
  -- Nothing but the limit ends a run whose nodes do not stop it.
  obtain ⟨err, error, before, en, rfl, full, rfl⟩ :=
    completes.overrun watched .start (by decide) failed
  obtain ⟨ran, recorded, few⟩ := (total.2.1 _ ts run completes).tasks
  refine ⟨(total.1 false).2 [] first .refl, run, before ++ [en], ts, en, ran, completes, ?_,
    List.getLast?_concat, failed, error, recorded, few⟩
  rw [List.length_append, full]
  rfl

end Conveyor
