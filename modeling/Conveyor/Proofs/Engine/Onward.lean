/-
Runs that go on, step by step.

A run that comes to a good end has gone on after every entry that it took: no node failed, paused
the run, canceled it or broke down. Whether a run goes on after an entry is told by the node and its
items, if nodes do what is told of them. So there are two inductions over a run. A run that came to
a good end has gone on all the time, and what every such step keeps holds in the end
(`induct_of_stops`). And a run whose entries all let it go on comes to a good end, if it may take
enough of them (`stops_of_goes`). The first is used for runs that are known to have succeeded, the
second to show that one does.
-/
import Conveyor.Proofs.Engine.Dataflow

set_option autoImplicit false

namespace Conveyor

namespace Engine

/-- A run goes on after a node is executed: it comes to a result that is no failure, and asks for no
pause that still lasts. -/
def Resolves (e : Engine) (told : Node → List Items → Attempt) (n : Node) (inputs : List Items) :
    Prop :=
  ∃ r, told n.unplaced inputs = .returns r ∧
    (r.settle n.onError (e.registry.outputs n.type)).status = .success ∧
    ∀ t, (r.settle n.onError (e.registry.outputs n.type)).till = some t → e.now.lt t = false

/-- A run goes on after an entry is taken: the node is there, and it is disabled or resolves the
entry. -/
def Passable (e : Engine) (told : Node → List Items → Attempt) (g : Graph) (en : Entry) : Prop :=
  ∃ n, g.node? en.node = some n ∧ (n.disabled = true ∨ e.Resolves told n en.inputs)

/-- What a pass has become that has taken an entry and goes on. -/
structure Onward (e : Engine) (told : Node → List Items → Attempt) (g : Graph) (en : Entry)
    (rest : List Entry) (p p' : Pass) : Prop where
  going : p'.canceled = false
  left : p.left = p'.left + 1
  agenda : p'.state.agenda
    = g.complete (p.state.withStack rest).agenda en.node (e.handed told g en)
  tasks : (e.written told g en = [] ∧ p'.state.tasks = p.state.tasks) ∨
    ∃ t, e.written told g en = [t.unnumbered] ∧ p'.state.tasks = p.state.tasks.record en.node t
  error : p'.state.error = p.state.error
  waitTill : p'.state.waitTill = p.state.waitTill

variable {e : Engine} {told : Node → List Items → Attempt} {x : Execution} {g : Graph}
  {p p' P : Pass} {en : Entry} {rest : List Entry} {n : Node}

/-! ## A step that goes on -/

/-- Conclusions that go on: the result is no failure and asks for no pause that still lasts. -/
theorem conclude_ready_iff {r : NodeResult} : e.conclude x p n en r = .ready p' ↔
    ((r.settle n.onError (e.registry.outputs n.type)).status = .success ∧
      ∀ t, (r.settle n.onError (e.registry.outputs n.type)).till = some t → e.now.lt t = false) ∧
    p' = (e.record p n (e.taskOf p en (r.settle n.onError (e.registry.outputs n.type)))).withAgenda
      (x.graph.complete (e.record p n (e.taskOf p en (r.settle n.onError
        (e.registry.outputs n.type)))).state.agenda n.name
        (r.settle n.onError (e.registry.outputs n.type)).output) := by
  have status : (e.taskOf p en (r.settle n.onError (e.registry.outputs n.type))).status
      = (r.settle n.onError (e.registry.outputs n.type)).status := rfl
  -- The result settles as a failure or a success, and a success pauses the run if its moment is
  -- still to come.
  simp only [conclude]
  cases fine : (r.settle n.onError (e.registry.outputs n.type)).status with
  | error => simp only [status, fine, reduceCtorEq, false_and]
  | success =>
    simp only [status, fine, pause, true_and]
    cases (r.settle n.onError (e.registry.outputs n.type)).till with
    | none =>
      simp only [Phase.ready.injEq, reduceCtorEq, false_implies, implies_true, true_and]
      exact eq_comm
    | some moment =>
      cases lasts : e.now.lt moment with
      | true =>
        simp only [if_true, reduceCtorEq, Option.some.injEq, forall_eq', lasts, false_and]
      | false =>
        simp only [Bool.false_eq_true, if_false, Phase.ready.injEq, Option.some.injEq, forall_eq',
          lasts, true_and]
        exact eq_comm

/-- A step that takes an entry of a disabled node hands its items on. -/
theorem step_disabled (going : p.canceled = false) (top : p.state.agenda.stack = en :: rest)
    {left : Nat} (allowed : p.left = left + 1) (node : x.graph.node? en.node = some n)
    (disabled : n.disabled = true) :
    e.step x (.ready p) = bypass x { p.withAgenda (p.state.withStack rest).agenda with
      left := left } n en := by
  have allowed' : (p.withAgenda (p.state.withStack rest).agenda).left = left + 1 := allowed
  rw [step_take going top, take_bypass allowed' node disabled]

/-- A step that takes an entry of an enabled node does what is told of the node. -/
theorem step_enabled (silent : e.Silent) (own : e.Local x.graph.workflow told)
    (going : p.canceled = false) (top : p.state.agenda.stack = en :: rest) {left : Nat}
    (allowed : p.left = left + 1) (node : x.graph.node? en.node = some n)
    (enabled : n.disabled = false) :
    ∃ q : Pass, q.state = p.state.withStack rest ∧ q.left = left ∧ q.canceled = false ∧
      e.step x (.ready p) = match told n.unplaced en.inputs with
        | .returns r => e.conclude x q n en r
        | .cancelsRun r => e.conclude x { q with canceled := true } n en r
        | .lingers r => .lingering q n en r
        | .breaks message => .broken message := by
  have known : n.unplaced ∈ x.graph.workflow.unplaced.nodes :=
    List.mem_map_of_mem (Graph.mem_of_node? node)
  set p₁ := p.withAgenda (p.state.withStack rest).agenda with hp₁
  have allowed₁ : p₁.left = left + 1 := allowed
  refine ⟨({ p₁ with left := left } : Pass).callHooks (.nodeStarts n.name)
    (e.hooks.map fun h => h.nodeStarts n.name), silent.nodeStarts_state _ n.name, rfl, going, ?_⟩
  rw [step_take going top, ← hp₁, take_execute allowed₁ node enabled]
  cases result : told n.unplaced en.inputs <;> simp only [execute, own n known, result]

/-- **An entry that lets a run go on is taken, and the run goes on.** -/
theorem step_onward (silent : e.Silent) (own : e.Local x.graph.workflow told)
    (going : p.canceled = false) (top : p.state.agenda.stack = en :: rest) (allowed : 0 < p.left)
    (passable : Passable e told x.graph en) :
    ∃ p', e.step x (.ready p) = .ready p' ∧ Onward e told x.graph en rest p p' := by
  obtain ⟨left, hleft⟩ := Nat.exists_eq_succ_of_ne_zero (Nat.pos_iff_ne_zero.1 allowed)
  obtain ⟨n, node, status⟩ := passable
  have name := Graph.name_of_node? node
  by_cases disabled : n.disabled = true
  · obtain ⟨handed, written⟩ := handed_of_disabled e told node disabled
    refine ⟨_, step_disabled going top hleft node disabled, going, hleft, ?_,
      .inl ⟨written, rfl⟩, rfl, rfl⟩
    rw [handed, ← name]
    rfl
  · have enabled : n.disabled = false := Bool.not_eq_true _ ▸ disabled
    obtain ⟨r, result, fine, awake⟩ := status.resolve_left disabled
    obtain ⟨q, state, left', calm, steps⟩ := step_enabled silent own going top hleft node enabled
    have settled : e.settled told n en = r.settle n.onError (e.registry.outputs n.type) := by
      rw [Engine.settled, result]
    have handed : e.handed told x.graph en = (e.settled told n en).output := by
      simp only [Engine.handed, node, Option.map_some, Option.getD_some, enabled,
        Bool.false_eq_true, if_false]
    rw [result] at steps
    -- Hooks are silent, so all that has changed is what the entry has left.
    refine ⟨_, steps.trans (conclude_ready_iff.2 ⟨⟨fine, awake⟩, rfl⟩), calm, ?_, ?_,
      .inr ⟨e.taskOf q en (e.settled told n en), ?_, ?_⟩, ?_, ?_⟩
    · exact hleft.trans (congrArg (· + 1) left'.symm)
    · simp only [Pass.withAgenda, silent.record_state, state, handed, settled, ← name]
      rfl
    · simp only [written, node, Option.map_some, Option.getD_some, enabled,
        Bool.false_eq_true, if_false]
      rfl
    · simp only [Pass.withAgenda, silent.record_state, state, settled, ← name]
      rfl
    · simp only [Pass.withAgenda, silent.record_state, state]
      rfl
    · simp only [Pass.withAgenda, silent.record_state, state]
      rfl

/-- A step that goes on has taken an entry that lets it. -/
theorem passable_of_step (silent : e.Silent) (own : e.Local x.graph.workflow told)
    (going : p.canceled = false) (top : p.state.agenda.stack = en :: rest)
    (goes : e.step x (.ready p) = .ready p') (going' : p'.canceled = false) :
    0 < p.left ∧ Passable e told x.graph en := by
  set p₁ := p.withAgenda (p.state.withStack rest).agenda with hp₁
  have taken : e.step x (.ready p) = e.take x p₁ en := step_take going top
  cases hleft : p.left with
  | zero =>
    have spent : p₁.left = 0 := hleft
    rw [taken, take, spent] at goes
    simp only [reduceCtorEq] at goes
  | succ left =>
    have allowed : p₁.left = left + 1 := hleft
    refine ⟨Nat.succ_pos left, ?_⟩
    cases node : x.graph.node? en.node with
    | none =>
      rw [taken, take_unknown allowed node] at goes
      simp only [reduceCtorEq] at goes
    | some n =>
      refine ⟨n, node, ?_⟩
      by_cases disabled : n.disabled = true
      · exact .inl disabled
      · have enabled : n.disabled = false := Bool.not_eq_true _ ▸ disabled
        obtain ⟨q, _, _, _, steps⟩ := step_enabled silent own going top hleft node enabled
        rw [goes] at steps
        cases result : told n.unplaced en.inputs with
        | returns r =>
          rw [result] at steps
          exact .inr ⟨r, result, (conclude_ready_iff.1 steps.symm).1⟩
        | cancelsRun r =>
          -- The run would have been canceled by now.
          have canceled : (Phase.ready p').isCanceled = true := by
            rw [steps, result]
            exact isCanceled_conclude e x { q with canceled := true } n en r
          exact absurd (going'.symm.trans canceled) Bool.false_ne_true
        | lingers r =>
          rw [result] at steps
          simp only [reduceCtorEq] at steps
        | breaks message =>
          rw [result] at steps
          simp only [reduceCtorEq] at steps

/-- What a step that goes on has made of the pass. -/
theorem onward_of_step (silent : e.Silent) (own : e.Local x.graph.workflow told)
    (going : p.canceled = false) (top : p.state.agenda.stack = en :: rest)
    (goes : e.step x (.ready p) = .ready p') (going' : p'.canceled = false) :
    Passable e told x.graph en ∧ Onward e told x.graph en rest p p' := by
  obtain ⟨allowed, passable⟩ := passable_of_step silent own going top goes going'
  obtain ⟨p'', goes', onward⟩ := step_onward silent own going top allowed passable
  obtain rfl := Phase.ready.inj (goes.symm.trans goes')
  exact ⟨passable, onward⟩

/-! ## Runs that go on -/

section Runs

variable {k : List Entry} {m : Nat}

/-- A run that comes to a good end goes on after every entry that it takes. -/
theorem goes_of_stops (silent : e.Silent) (going : p.canceled = false)
    (top : p.state.agenda.stack = en :: rest)
    (stops : e.steps x m (e.step x (.ready p)) = .stopped P false) (fine : P.state.error = none)
    (ended : P.state.waitTill = none) :
    ∃ p', e.step x (.ready p) = .ready p' ∧ p'.canceled = false := by
  have turn := turn_step silent.watched x (.ready p)
  generalize next : e.step x (.ready p) = φ at *
  cases φ with
  | ready p' =>
    refine ⟨p', rfl, Bool.eq_false_iff.2 fun canceled => ?_⟩
    -- A run that was canceled meanwhile would have stopped as one that was.
    have stopped : e.step x (.ready p') = .stopped p' true := by simp only [step, canceled, if_true]
    cases m with
    | zero => simp only [steps, reduceCtorEq] at stops
    | succ m =>
      rw [steps, stopped, steps_of_rest rfl] at stops
      simp only [Phase.stopped.injEq, Bool.true_eq_false, and_false] at stops
  | lingering p' n en' r =>
    cases turn with
    | lingers works canceled =>
      have rests : e.step x (.lingering p' n en' r) = .lingering p' n en' r := by
        simp only [Engine.step, canceled, going, Bool.false_eq_true, if_false]
      rw [steps_of_rest rests] at stops
      simp only [reduceCtorEq] at stops
  | broken message =>
    rw [steps_of_rest rfl] at stops
    simp only [reduceCtorEq] at stops
  | stopped P' c =>
    rw [steps_of_rest rfl] at stops
    obtain ⟨rfl, -⟩ := Phase.stopped.inj stops
    -- A run stops at once only if it is over, or for a reason that a good end excludes.
    cases turn with
    | ended done =>
      rcases done with canceled | empty
      · exact absurd (going.symm.trans canceled) Bool.false_ne_true
      · rw [top] at empty
        simp only [reduceCtorEq] at empty
    | refused _ _ _ state => simp only [state, reduceCtorEq] at fine
    | failed _ _ state => simp only [state, reduceCtorEq] at fine
    | paused _ _ state => simp only [state, reduceCtorEq] at ended

/-- What a run takes that goes on after an entry is that entry, and what it takes after it. -/
theorem history_onward (going : p.canceled = false) (top : p.state.agenda.stack = en :: rest)
    (goes : e.step x (.ready p) = .ready p') (onward : Onward e told g en rest p p') :
    e.history x (.ready p) = en :: e.history x (.ready p') := by
  have bound : (Phase.ready p).bound = (Phase.ready p').bound + 1 := by
    simp only [Phase.bound, onward.left]
  rw [history, bound, taken, Phase.next?_ready going top, goes]
  rfl

/-- What comes first of a list that begins with it and goes on with another element. -/
theorem prefix_of_append_cons {a b K : List Entry} (whole : a ++ en :: b = K) : a ++ [en] <+: K :=
  ⟨b, by rw [List.append_assoc, List.singleton_append, whole]⟩

/-- **Induction over a run that came to a good end.** What holds of a pass and is kept whenever an
entry is taken and the run goes on holds in the end, when nothing is left on the stack. All that is
taken is `K`. -/
theorem induct_of_stops {K : List Entry} (silent : e.Silent) (own : e.Local x.graph.workflow told)
    (inv : List Entry → Pass → Prop)
    (step : ∀ {k p p' en rest}, inv k p → p.state.agenda.stack = en :: rest →
      Passable e told x.graph en → Onward e told x.graph en rest p p' → k ++ [en] <+: K →
      inv (k ++ [en]) p')
    (begun : inv k p) (whole : k ++ e.taken x m (.ready p) = K) (going : p.canceled = false)
    (stops : e.steps x m (.ready p) = .stopped P false)
    (fine : P.state.error = none) (ended : P.state.waitTill = none) :
    P.state.agenda.stack = [] ∧ inv K P := by
  induction m generalizing k p with
  | zero => simp only [steps, reduceCtorEq] at stops
  | succ m ih =>
    rw [steps] at stops
    rw [taken] at whole
    cases top : p.state.agenda.stack with
    -- With an empty stack the run has stopped where it is.
    | nil =>
      rw [step_done going top, steps_of_rest rfl] at stops
      obtain ⟨rfl, -⟩ := Phase.stopped.inj stops
      have none : (Phase.ready p).next? = none := by simp [Phase.next?, top]
      rw [step_done going top, taken_stopped, none, Option.toList_none, List.append_nil,
        List.append_nil] at whole
      exact ⟨top, whole ▸ begun⟩
    | cons en rest =>
      obtain ⟨p', goes, going'⟩ := goes_of_stops silent going top stops fine ended
      obtain ⟨passable, onward⟩ := onward_of_step silent own going top goes going'
      rw [goes] at stops
      rw [goes, Phase.next?_ready going top, Option.toList_some, List.singleton_append] at whole
      have whole' : k ++ [en] ++ e.taken x m (.ready p') = K := by
        rw [List.append_assoc, List.singleton_append, whole]
      exact ih (step begun top passable onward (prefix_of_append_cons whole)) whole' going' stops

/-- **A run whose entries let it go on comes to a good end.** An invariant says that the next entry
may be taken and lets the run go on, and is kept when it does. -/
theorem stops_of_goes {K : List Entry} (silent : e.Silent) (own : e.Local x.graph.workflow told)
    (inv : List Entry → Pass → Prop)
    (ahead : ∀ {k p en rest}, inv k p → p.state.agenda.stack = en :: rest →
      0 < p.left ∧ Passable e told x.graph en)
    (step : ∀ {k p p' en rest}, inv k p → p.state.agenda.stack = en :: rest →
      Onward e told x.graph en rest p p' → k ++ [en] <+: K → inv (k ++ [en]) p')
    (begun : inv k p) (whole : k ++ e.history x (.ready p) = K) (going : p.canceled = false)
    (fine : p.state.error = none) (awake : p.state.waitTill = none) :
    ∃ P, e.advance x (.ready p) = .stopped P false ∧ P.state.error = none ∧
      P.state.waitTill = none ∧ P.state.agenda.stack = [] ∧ inv K P := by
  -- Every entry uses up some of what is allowed, so the run stops after as many steps as are left,
  -- and one.
  have stops : ∀ left {k p}, p.left = left → inv k p → k ++ e.history x (.ready p) = K →
      p.canceled = false → p.state.error = none → p.state.waitTill = none →
      ∃ P, e.steps x (left + 1) (.ready p) = .stopped P false ∧
        P.state.error = none ∧ P.state.waitTill = none := by
    intro left
    induction left with
    | zero =>
      intro k p spent here _ going fine awake
      cases top : p.state.agenda.stack with
      | nil => exact ⟨p, by rw [steps, step_done going top]; rfl, fine, awake⟩
      | cons en rest => exact absurd (ahead here top).1 (by omega)
    | succ left ih =>
      intro k p allowed here whole going fine awake
      rw [steps]
      cases top : p.state.agenda.stack with
      | nil => exact ⟨p, by rw [step_done going top, steps_of_rest rfl], fine, awake⟩
      | cons en rest =>
        obtain ⟨may, passable⟩ := ahead here top
        obtain ⟨p', goes, onward⟩ := step_onward silent own going top may passable
        rw [goes]
        rw [history_onward going top goes onward] at whole
        have left' : p'.left = left := Nat.succ.inj (onward.left.symm.trans allowed)
        have whole' : k ++ [en] ++ e.history x (.ready p') = K := by
          rw [List.append_assoc, List.singleton_append, whole]
        exact ih left' (step here top onward (prefix_of_append_cons whole)) whole' onward.going
          (onward.error.trans fine) (onward.waitTill.trans awake)
  obtain ⟨P, rest, fine', awake'⟩ := stops p.left rfl begun whole going fine awake
  obtain ⟨empty, last⟩ := induct_of_stops silent own inv
    (fun here top _ onward taken => step here top onward taken) begun whole going rest fine' awake'
  exact ⟨P, rest, fine', awake', empty, last⟩

end Runs

/-! ## Requests that succeed -/

/-- A run that succeeds has stopped without an error and without a pause. -/
theorem stops_of_success {φ : Phase} {r : Run} {log : HookLog} (silent : e.Silent)
    (ends : e.ending x φ = .run r log) (success : r.status = .success) :
    ∃ P, e.advance x φ = .stopped P false ∧ P.state.error = none ∧ P.state.waitTill = none ∧
      r.state = P.state := by
  obtain ⟨P, c, stops, agrees⟩ := stopped_of_ending silent ends
  have status : (e.runOf x P.state c).status = .success := agrees.status.symm.trans success
  obtain ⟨fine, -, rfl, ended⟩ := success_iff.1 status
  refine ⟨P, stops, ?_, ?_, agrees.state⟩
  · exact Option.isNone_iff_eq_none.1 (Option.isSome_eq_false_iff.1 fine)
  · exact Option.isNone_iff_eq_none.1 (Option.isSome_eq_false_iff.1 ended)

/-- A run that has stopped without an error and without a pause succeeds. -/
theorem success_of_stops {φ : Phase} (silent : e.Silent) (stops : e.advance x φ = .stopped P false)
    (fine : P.state.error = none) (ended : P.state.waitTill = none) :
    ∃ r log, e.ending x φ = .run r log ∧ r.status = .success ∧ r.state = P.state := by
  obtain ⟨r, log, ends, agrees⟩ := ending_stopped silent stops
  refine ⟨r, log, ends, agrees.status.trans ?_, agrees.state⟩
  simp only [runOf, fine, ended, Option.isSome_none]
  rfl

end Engine

end Conveyor
