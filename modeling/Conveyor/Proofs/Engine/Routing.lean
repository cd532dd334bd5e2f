/-
Where failures go.

A node says what becomes of its run when it fails. It stops the run, or its message is put out as an
item, in place of a regular output or on a port of its own behind all regular ones
(`ErrorPolicy.port?`). The message is the only item then, so that `Graph.pushes` can make ready only
what is wired to this port; and the task counts as a success, so that the run goes on as after any
other. `Routed` collects this for one step, whatever has failed: a node of a known type, one of an
unknown type, or one that lingered and failed when the run was canceled.

As `Limit` leaves two ways only in which a run can fail, a workflow without enabled nodes that stop
it leaves one.
-/
import Conveyor.Proofs.Engine.Limit

set_option autoImplicit false

namespace Conveyor

/-! ## The port of a failure -/

/-- The output port on which the message of a failure is put out, by the policy of a node with a
number of regular ports. A node that stops its workflow puts out nothing. -/
def ErrorPolicy.port? (regular : Nat) : ErrorPolicy → Option Nat
  | stopWorkflow => none
  | continueRegularOutput => some 0
  | continueErrorOutput => some regular

/-- A failure that lets the run go on is settled as a success with one item, on the port of
failures. -/
theorem NodeResult.settle_failed {errors : List String} {policy : ErrorPolicy} {regular port : Nat}
    (routed : policy.port? regular = some port) : (NodeResult.failed errors).settle policy regular =
      { status := .success, output := List.replicate port [] ++ [[errorItem (messageOf errors)]],
        error := some { message := messageOf errors } } := by
  cases policy with
  | stopWorkflow => simp only [ErrorPolicy.port?, reduceCtorEq] at routed
  | continueRegularOutput =>
    obtain rfl : 0 = port := Option.some.inj routed
    rfl
  | continueErrorOutput =>
    obtain rfl : regular = port := Option.some.inj routed
    rfl

/-- An output that is empty up to its last port has items there only. -/
theorem getD_replicate_concat (port k : Nat) (items : Items) :
    (List.replicate port [] ++ [items]).getD k [] = if k = port then items else [] := by
  rw [List.getD_eq_getElem?_getD]
  rcases Nat.lt_trichotomy k port with before | rfl | behind
  · rw [List.getElem?_append_left (by rwa [List.length_replicate]),
      List.getElem?_replicate_of_lt before, if_neg (Nat.ne_of_lt before), Option.getD_some]
  · rw [List.getElem?_append_right (List.length_replicate ▸ Nat.le_refl k), List.length_replicate,
      Nat.sub_self, if_pos rfl]
    rfl
  · rw [List.getElem?_eq_none, if_neg (Nat.ne_of_gt behind), Option.getD_none]
    rwa [List.length_append, List.length_replicate]

namespace Engine

variable {e : Engine} {x : Execution} {φ : Phase} {p p' q : Pass} {n : Node} {en : Entry}
  {a : Attempt} {r : NodeResult}

/-! ## The step of a failure -/

/-- The node in hand works on its entry, if the next step brings its execution to a result. -/
theorem Watched.works_of_hand (hk : e.Watched) (hand : e.hand? x φ = some (q, n, en))
    (goes : e.goesOn x q n en φ = a) (result : a = .returns r ∨ a = .cancelsRun r) :
    Works e x φ en n q a := by
  -- The node has been entered in this turn, or it lingers and can only come to a result once the
  -- run is canceled.
  obtain ⟨p, rest, left, rfl, going, top, hleft, node, enabled, rfl⟩ | ⟨r', rfl⟩ := hand?_cases hand
  · subst goes
    have trims := hk.callHooks (.nodeStarts n.name) (fun h => h.nodeStarts n.name)
      (fun k h s => h.nodeStarts n.name s) (p.state.withStack rest)
    have state : (e.enter p n).state = (Conveyor.callHooks (.nodeStarts n.name) 0
        (e.hooks.map fun h => h.nodeStarts n.name) (p.state.withStack rest)).2 := by
      rw [enter, top]
      rfl
    refine .taken going top ?_ node enabled (by rw [state]; exact trims) (fun silent => ?_) rfl
    · rw [hleft, enter, hleft]
      rfl
    · rw [state]
      exact silent.callHooks _ _ (fun _ k => k.nodeStarts n.name) _
  · rw [goesOn] at goes
    cases canceled : q.canceled with
    | true =>
      rw [canceled, if_pos rfl] at goes
      exact goes ▸ .lingered canceled
    | false =>
      rw [canceled, if_neg Bool.false_ne_true] at goes
      subst goes
      simp only [reduceCtorEq, or_self] at result

/-- What a pass has after a success: the task is on record, and what it makes ready is on top of the
entries that hooks have left. -/
theorem Watched.succeeded_state (hk : e.Watched) (x : Execution) (q : Pass) (n : Node) (t : Task) :
    ∃ stack, stack.Sublist q.state.agenda.stack ∧ (e.succeeded x q n t).state =
      { q.state.recorded n.name t with
        agenda := x.graph.complete { q.state.agenda with stack := stack } n.name t.output } := by
  obtain ⟨stack, below, recorded⟩ :=
    hk.callHooks (.nodeEnds n.name t) _ (fun k h s => h.nodeEnds n.name t s)
    (q.state.recorded n.name t)
  have recorded : (e.record q n t).state = (q.state.recorded n.name t).withStack stack := recorded
  refine ⟨stack, below, ?_⟩
  simp only [succeeded, Pass.withAgenda, recorded]
  rfl

/-- A completion pushes nodes that are wired to a port with items. -/
theorem wired_of_pushes {g : Graph} {b : Agenda} {node : String} {output : List Items} {port : Nat}
    (only : ∀ k, output.getD k [] ≠ [] → k = port) (pushed : en ∈ g.pushes b node output) :
    ∃ l ∈ g.inbound en.node, l.source = node ∧ l.output = port := by
  obtain ⟨l, hl, source, items⟩ := (Graph.mem_pushes.1 pushed).1.link
  exact ⟨l, hl, source, only l.output items⟩

/-- What has become of a pass in a step in which a node has failed and its message was put out on a
port. -/
structure Routed (x : Execution) (φ : Phase) (p : Pass) (n : Node) (errors : List String)
    (port : Nat) (p' : Pass) :
    Prop where
  /-- The task that is recorded is a success and keeps the error. It has one item on the port, and
  none on others. -/
  task : ∃ t, p'.state.tasks = p.state.tasks.record n.name t ∧ t.status = .success ∧
    t.error = some { message := NodeResult.messageOf errors } ∧ t.output.length = port + 1 ∧
    ∀ k, t.port k = if k = port then [errorItem (NodeResult.messageOf errors)] else []
  /-- What is pushed is wired to the port. -/
  pushed : ∃ new rest, (φ.next?.toList ++ rest).Sublist p.state.agenda.stack ∧
    p'.state.agenda.stack = new ++ rest ∧
    ∀ en ∈ new, ∃ l ∈ x.graph.inbound en.node, l.source = n.name ∧ l.output = port
  fine : p'.state.error = p.state.error
  awake : p'.state.waitTill = p.state.waitTill

/-- The task that a failure comes to if it lets the run go on. -/
theorem comesTo_failed {errors : List String} {port : Nat} (e : Engine) (q : Pass) (en : Entry)
    (routed : n.onError.port? (e.registry.outputs n.type) = some port) :
    e.comesTo q n en (.failed errors) =
      { index := q.nextIndex, startTime := e.now, elapsed := e.took en,
        status := .success, sources := en.sources,
        output := List.replicate port [] ++ [[errorItem (NodeResult.messageOf errors)]],
        error := some { message := NodeResult.messageOf errors } } := by
  rw [comesTo, NodeResult.settle_failed routed]
  rfl

/-- A failure that lets the run go on is concluded like a success. -/
theorem conclude_failed {errors : List String} {port : Nat} (e : Engine) (x : Execution) (q : Pass)
    (en : Entry) (routed : n.onError.port? (e.registry.outputs n.type) = some port) :
    e.conclude x q n en (.failed errors) = .ready
      (e.succeeded x q n (e.comesTo q n en (.failed errors))) := by
  have settled := @NodeResult.settle_failed errors _ _ _ routed
  rw [conclude, succeeded, comesTo, settled]
  rfl

/-- **A failure that lets the run go on is routed.** -/
theorem Routed.of_hand (hk : e.Watched) (hp : φ.pass? = some p)
    (hand : e.hand? x φ = some (q, n, en)) {errors : List String} {port : Nat}
    (goes : e.goesOn x q n en φ = a)
    (fails : a = .returns (.failed errors) ∨ a = .cancelsRun (.failed errors))
    (routed : n.onError.port? (e.registry.outputs n.type) = some port) :
    ∃ p', e.step x φ = .ready p' ∧ Routed x φ p n errors port p' := by
  obtain ⟨-, -, -, stack, below, state, -⟩ := (hk.works_of_hand hand goes fails).state hp
  -- That the run may have been canceled meanwhile makes no difference to the state.
  obtain ⟨q', same, steps⟩ : ∃ q' : Pass, q'.state = q.state ∧
      e.step x φ = e.conclude x q' n en (.failed errors) := by
    rw [step_hand hand, goes]
    rcases fails with rfl | rfl
    · exact ⟨q, rfl, rfl⟩
    · exact ⟨{ q with canceled := true }, rfl, rfl⟩
  rw [steps, conclude_failed e x q' en routed]
  generalize task : e.comesTo q' n en (.failed errors) = t
  rw [comesTo_failed e q' en routed] at task
  obtain ⟨rest, below', after⟩ := hk.succeeded_state x q' n t
  rw [same, state] at below' after
  -- All that is pushed is fed from a port with items, and there is one such port.
  have ports : ∀ k,
      t.output.getD k [] = if k = port then [errorItem (NodeResult.messageOf errors)] else [] := by
    rw [← task]
    exact fun k => getD_replicate_concat port k _
  refine ⟨_, rfl, ⟨t, by rw [after]; rfl, by rw [← task], by rw [← task], ?_, ports⟩,
    ⟨_, rest, ?_, by rw [after]; rfl, fun en pushed => wired_of_pushes (fun k items => ?_) pushed⟩,
    by rw [after]; rfl, by rw [after]; rfl⟩
  · rw [← task, List.length_append, List.length_replicate, List.length_singleton]
  · exact (below'.append_left _).trans below
  · by_contra other
    exact items (by rw [ports k, if_neg other])

/-! ## Runs that no failure ends -/

/-- A run in which no enabled node stops its workflow fails only if it takes one entry too many. -/
theorem Completes.overrun (hk : e.Watched) {w : Workflow} {request : Request} {h : List Entry}
    {ts : List (String × Task)} {run : Run} (genuine : Genuine w request)
    (continues : ∀ n ∈ w.nodes, n.disabled = false → n.onError ≠ .stopWorkflow)
    (completes : e.Completes w request h ts run) (failed : run.status = .failed) :
    ∃ err, run.state.error = some err ∧ e.Overrun h err := by
  obtain ⟨x, p, c, rfl, within, error, -, fails⟩ := completes.within hk genuine
  obtain ⟨err, blames⟩ := fails.1 failed
  refine ⟨err, blames, (within.error err (error ▸ blames)).resolve_right ?_⟩
  rintro ⟨-, n, known, enabled, policy, -⟩
  exact continues n known enabled policy

/-- **Errors are routed.** At whatever moment of a run an enabled node fails, if its policy lets the
run go on: the task on record is a success that keeps the error, the message is the only item that
is put out, on the port of failures, nothing is pushed that is not wired to that port, and the run
neither ends nor pauses. A node of an unknown type fails like this and counts as one with a single
regular port. So a run in which no enabled node stops its workflow can end with an error in one way
only: it has taken one entry more than the engine allows. -/
theorem error_routing (hk : e.Watched) :
    (∀ {x φ p q n en errors port}, φ.pass? = some p → e.hand? x φ = some (q, n, en) →
      (e.goesOn x q n en φ = .returns (.failed errors) ∨ e.goesOn x q n en φ = .cancelsRun
        (.failed errors)) →
      n.onError.port? (e.registry.outputs n.type) = some port →
      ∃ p', e.step x φ = .ready p' ∧ Routed x φ p n errors port p') ∧
    (∀ {n : Node}, e.registry.get? n.type = none → e.registry.outputs n.type = 1 ∧
      ∀ x s en, e.attempt x s n en = .returns (.failed ["Unknown node type '" ++ n.type ++ "'"])) ∧
    ∀ {w request h ts run}, Genuine w request →
      (∀ n ∈ w.nodes, n.disabled = false → n.onError ≠ .stopWorkflow) →
      e.Completes w request h ts run → run.status = .failed →
      ∃ err, run.state.error = some err ∧ e.Overrun h err := by
  refine ⟨fun hp hand fails routed => Routed.of_hand hk hp hand rfl fails routed, fun unknown => ?_,
    fun genuine continues completes failed => completes.overrun hk genuine continues failed⟩
  simp only [Registry.outputs, attempt, unknown, Option.map_none, Option.getD_none,
    implies_true, and_self]

end Engine

/-! ## A run on which nodes fail

Start fails whatever it gets, and is wired to itself on the port of failures; so is Ghost, whose
type nobody knows. -/

namespace Mishap

/-- The workflow. What Start would put out if it did not fail goes to A. -/
def workflow : Workflow where
  id := "mishap"
  name := "Mishap"
  nodes :=
    [{ id := "1", name := "Start", type := "fault", onError := .continueErrorOutput },
      { id := "2", name := "A", type := "noOp", onError := .continueRegularOutput },
      { id := "3", name := "Ghost", type := "ghost", onError := .continueErrorOutput }]
  connections := [("Start", [("main", [[⟨"A", 0⟩], [⟨"Ghost", 0⟩, ⟨"Start", 0⟩]])])]

/-- An engine that does not know the type of Ghost. -/
def engine : Engine where
  registry := [("fault", Detour.fault), ("noOp", NodeType.noOp)]
  box := ⟨0, []⟩
  maxIterations := 3
  now := ⟨0, 0⟩

/-- A run from Start on. -/
def request : Request := .start "run" .manual (some "Start") none

/-- It is executed on the graph of the workflow. -/
def execution : Execution := ⟨.of workflow (by decide) (by decide), "run", .manual, ⟨0, 0⟩⟩

/-- The first phase of the run. -/
def first : Phase := engine.begin execution (RunState.starting (some "Start") ["Start"] none) false

theorem watched : engine.Watched := fun _ hook => absurd hook List.not_mem_nil

/-- The pass that the run begins with. -/
def begun : Pass := first.pass?.get rfl

/-- Start is in hand first and fails; its message is what Ghost and Start itself get next. In the
end the run fails for taking one entry too many, although no node has stopped it. -/
theorem start_fails : (∃ p', engine.step execution first = .ready p' ∧
      Engine.Routed execution first begun workflow.nodes[0] ["No way"] 1 p' ∧
      p'.state.agenda.stack.map Entry.node = ["Ghost", "Start"]) ∧
    engine.registry.outputs "ghost" = 1 ∧
    ∃ (run : Run) (h : List Entry) (err : RunError), run.status = .failed ∧
      run.state.error = some err ∧ engine.Overrun h err := by
  have routing := Engine.error_routing watched
  have hand : engine.hand? execution first =
      some (engine.enter begun workflow.nodes[0], workflow.nodes[0],
        Entry.single "Start" 0 [{}] []) := rfl
  obtain ⟨p', steps, routed⟩ := routing.1 rfl hand (.inl rfl) (rfl : _ = some 1)
  obtain ⟨run, log, performs, failed⟩ : ∃ run log,
      engine.perform workflow request false = .ok (.run run log) ∧ run.status = .failed :=
      ⟨_, _, rfl, by decide⟩
  obtain ⟨h, ts, completes⟩ := Engine.completes_of_perform performs
  obtain ⟨err, error, overrun⟩ := routing.2.2 .start (by decide) completes failed
  refine ⟨⟨p', steps, routed, ?_⟩,
    (routing.2.1 (rfl : engine.registry.get? workflow.nodes[2].type = none)).1, run, h, err, failed,
    error, overrun⟩
  obtain rfl : p' = _ := (Phase.ready.inj steps).symm
  decide

end Mishap

end Conveyor
