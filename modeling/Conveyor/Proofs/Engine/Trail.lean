/-
What a pass executes, in order.

The history of a run tells which entries it has taken. What became of them is told here: the trail
of a pass lists the tasks that its executions come to, the first one first. An execution may take
two steps, if its node lingers, and may come to nothing, if its node breaks down; it is on the trail
when it is concluded. So the trail is read off the steps themselves, and not off what the run has
put on record: that the records agree with it is what is to be shown.

`hand?` is the node that a step has in hand, and `step_hand` says that such a step does with it what
its execution comes to. What a look at the stack comes to that puts no node in hand is listed in
`Unhanded`. `tasks_step` is the link to the records: a step that concludes an execution records its
task, and any other step records nothing. `Completes.tasks` says the same of whole passes.
-/
import Conveyor.Proofs.Engine.Pause

set_option autoImplicit false

namespace Conveyor

namespace Engine

/-! ## The node in hand -/

/-- The pass in which the entry on top of the stack is executed by its node: the entry is gone from
the stack, and the hooks have been told. -/
def enter (e : Engine) (p : Pass) (n : Node) : Pass :=
  ({ p with state := p.state.withStack p.state.agenda.stack.tail, left := p.left - 1 } :
    Pass).callHooks
    (.nodeStarts n.name) (e.hooks.map fun h => h.nodeStarts n.name)

/-- The enabled node that the next step executes or waits for, with the pass it is executed in and
its entry. -/
def hand? (e : Engine) (x : Execution) : Phase → Option (Pass × Node × Entry)
  | .ready p => do
    let en ← (Phase.ready p).next?
    let n ← x.graph.node? en.node
    if p.left = 0 ∨ n.disabled = true then none else some (e.enter p n, n, en)
  | .lingering p n en _ => some (p, n, en)
  | .stopped .. | .broken _ => none

/-- How the execution of the node in hand goes on in the next step. -/
def goesOn (e : Engine) (x : Execution) (q : Pass) (n : Node) (en : Entry) : Phase → Attempt
  | .lingering _ _ _ r => if q.canceled then .returns r else .lingers r
  | .ready _ | .stopped .. | .broken _ => e.attempt x q.state n en

/-- The task that a result comes to. -/
def comesTo (e : Engine) (q : Pass) (n : Node) (en : Entry) (r : NodeResult) : Task :=
  e.taskOf q en (r.settle n.onError (e.registry.outputs n.type))

/-- The execution that the next step concludes, if it concludes one: its node, and the task that it
comes to. -/
def concludes? (e : Engine) (x : Execution) (φ : Phase) : Option (String × Task) := do
  let (q, n, en) ← e.hand? x φ
  match e.goesOn x q n en φ with
  | .returns r | .cancelsRun r => some (n.name, e.comesTo q n en r)
  | .lingers _ | .breaks _ => none

variable {e : Engine} {x : Execution} {φ φ' : Phase} {p p' q : Pass} {n : Node} {en : Entry}
  {r : NodeResult}

/-- A run that is ready has a node in hand if the entry on top may be taken and its node is there
and enabled. -/
theorem hand?_ready : e.hand? x (.ready p) = some (q, n, en) ↔ ∃ rest left, p.canceled = false ∧
    p.state.agenda.stack = en :: rest ∧ p.left = left + 1 ∧ x.graph.node? en.node = some n ∧
    n.disabled = false ∧ q = e.enter p n := by
  constructor
  · intro hand
    obtain ⟨en', next, hand⟩ := Option.bind_eq_some_iff.1 hand
    obtain ⟨n', node, hand⟩ := Option.bind_eq_some_iff.1 hand
    split at hand
    · simp only [reduceCtorEq] at hand
    · rename_i may
      obtain ⟨spent, disabled⟩ := not_or.1 may
      obtain ⟨rfl, same⟩ := Prod.mk.inj (Option.some.inj hand)
      obtain ⟨rfl, rfl⟩ := Prod.mk.inj same
      -- The two tests of the loop, for the limit and for a disabled node, have both been passed.
      obtain ⟨left, hleft⟩ := Nat.exists_eq_succ_of_ne_zero spent
      simp only [Phase.next?] at next
      split at next
      · simp only [reduceCtorEq] at next
      · rename_i going
        obtain ⟨rest, top⟩ := List.head?_eq_some_iff.1 next
        exact ⟨rest, left, by simpa using going, top, hleft, node, by simpa using disabled, rfl⟩
  · rintro ⟨rest, left, going, top, hleft, node, enabled, rfl⟩
    have next := Phase.next?_ready going top
    simp only [hand?, next, node, hleft, enabled, Nat.succ_ne_zero, Bool.false_eq_true,
      or_self, if_false, Option.bind_eq_bind, Option.bind_some]

/-- A node that is in hand is about to be executed, or it lingers. -/
theorem hand?_cases (hand : e.hand? x φ = some (q, n, en)) :
    (∃ p rest left, φ = .ready p ∧ p.canceled = false ∧ p.state.agenda.stack = en :: rest ∧
      p.left = left + 1 ∧ x.graph.node? en.node = some n ∧ n.disabled = false ∧ q = e.enter p n) ∨
      ∃ r, φ = .lingering q n en r := by
  cases φ with
  | ready p =>
    obtain ⟨rest, left, found⟩ := hand?_ready.1 hand
    exact .inl ⟨p, rest, left, rfl, found⟩
  | lingering p n' en' r =>
    obtain ⟨rfl, same⟩ := Prod.mk.inj (Option.some.inj hand)
    obtain ⟨rfl, rfl⟩ := Prod.mk.inj same
    exact .inr ⟨r, rfl⟩
  | stopped p c => simp only [hand?, reduceCtorEq] at hand
  | broken m => simp only [hand?, reduceCtorEq] at hand

/-- **A step does with the node in hand what its execution comes to.** -/
theorem step_hand (hand : e.hand? x φ = some (q, n, en)) :
    e.step x φ = match e.goesOn x q n en φ with
    | .returns r => e.conclude x q n en r
    | .cancelsRun r => e.conclude x { q with canceled := true } n en r
    | .lingers r => .lingering q n en r
    | .breaks message => .broken message := by
  obtain ⟨p, rest, left, rfl, going, top, hleft, node, enabled, rfl⟩ | ⟨r, rfl⟩ := hand?_cases hand
  · have allowed : (p.withAgenda (p.state.withStack rest).agenda).left = left + 1 := hleft
    have entered :
        ({ p.withAgenda (p.state.withStack rest).agenda with left := left } : Pass).callHooks
        (.nodeStarts n.name) (e.hooks.map fun h => h.nodeStarts n.name) = e.enter p n := by
      rw [enter, top, hleft]
      rfl
    rw [step_take going top, take_execute allowed node enabled, execute, entered]
    rfl
  · rw [step, goesOn]
    cases q.canceled <;> rfl

/-- What a look at the stack comes to that puts no node in hand: the run was canceled, nothing is
left, the entry on top is one too many or its node is not there, or the node is disabled. -/
inductive Unhanded (e : Engine) (x : Execution) (p : Pass) : Phase → Prop
  | canceled (canceled : p.canceled = true) : Unhanded e x p (.stopped p true)
  | empty (going : p.canceled = false) (stack : p.state.agenda.stack = []) :
    Unhanded e x p (.stopped p false)
  | refused {en : Entry} {rest : List Entry} (next : (Phase.ready p).next? = some en)
    (spent : p.left = 0) :
      Unhanded e x p
        (.stopped ((p.withAgenda (p.state.withStack rest).agenda).failWith e.limitMessage en.node)
          false)
  | unknown {en : Entry} {rest : List Entry} {left : Nat} (next : (Phase.ready p).next? = some en)
      (missing : x.graph.node? en.node = none) :
      Unhanded e x p
        (.stopped
          (({ p.withAgenda (p.state.withStack rest).agenda with left := left } : Pass).failWith
            ("Node '" ++ en.node ++ "' does not exist in the workflow") en.node) false)
  | bypassed {en : Entry} {rest : List Entry} {left : Nat} {n : Node}
      (next : (Phase.ready p).next? = some en)
      (node : x.graph.node? en.node = some n) (disabled : n.disabled = true) :
      Unhanded e x p
        (bypass x { p.withAgenda (p.state.withStack rest).agenda with left := left } n en)

theorem unhanded_step (idle : e.hand? x (.ready p) = none) :
    Unhanded e x p (e.step x (.ready p)) := by
  cases going : p.canceled with
  | true =>
    simp only [step, going, if_true]
    exact .canceled going
  | false =>
    cases top : p.state.agenda.stack with
    | nil =>
      rw [step_done going top]
      exact .empty going top
    | cons en rest =>
      have next := Phase.next?_ready going top
      rw [step_take going top]
      cases hleft : p.left with
      | zero =>
        have spent : (p.withAgenda (p.state.withStack rest).agenda).left = 0 := hleft
        simp only [take, spent]
        exact .refused next hleft
      | succ left =>
        have allowed : (p.withAgenda (p.state.withStack rest).agenda).left = left + 1 := hleft
        cases node : x.graph.node? en.node with
        | none =>
          rw [take_unknown allowed node]
          exact .unknown next node
        | some n =>
          cases disabled : n.disabled with
          | true =>
            rw [take_bypass allowed node disabled]
            exact .bypassed next node disabled
          | false =>
            -- An enabled node would have been in hand.
            have hand : e.hand? x (.ready p) = some (e.enter p n, n, en) :=
              hand?_ready.2 ⟨rest, left, going, top, hleft, node, disabled, rfl⟩
            exact absurd (hand.symm.trans idle) (Option.some_ne_none _)

/-- A pass after a success: its task is on record, and what it makes ready is on the stack. -/
def succeeded (e : Engine) (x : Execution) (q : Pass) (n : Node) (t : Task) : Pass :=
  (e.record q n t).withAgenda (x.graph.complete (e.record q n t).state.agenda n.name t.output)

/-- What an execution is concluded with: it has failed, it pauses the run, or the run goes on. -/
inductive Conclusion (e : Engine) (x : Execution) (q : Pass) (n : Node) (en : Entry)
    (r : NodeResult) : Phase → Prop
  | failed (message : String) (status : (e.comesTo q n en r).status = .error) :
      Conclusion e x q n en r
        (.stopped ((e.record q n (e.comesTo q n en r)).failWith message n.name) false)
  | paused {p : Pass} {till : Time.Instant} (status : (e.comesTo q n en r).status = .success)
      (asks : (r.settle n.onError (e.registry.outputs n.type)).till = some till)
        (later : e.now.lt till = true)
      (pass : p = e.succeeded x q n (e.comesTo q n en r)) :
      Conclusion e x q n en r
        (.stopped { p with state := { p.state with waitTill := some till } } false)
  | goes (status : (e.comesTo q n en r).status = .success) :
      Conclusion e x q n en r (.ready (e.succeeded x q n (e.comesTo q n en r)))

theorem conclusion (e : Engine) (x : Execution) (q : Pass) (n : Node) (en : Entry)
    (r : NodeResult) :
    Conclusion e x q n en r (e.conclude x q n en r) := by
  have task : e.taskOf q en (r.settle n.onError (e.registry.outputs n.type)) = e.comesTo q n en r :=
    rfl
  simp only [conclude, task]
  cases status : (e.comesTo q n en r).status with
  | error => exact .failed _ status
  | success =>
    simp only [pause]
    split
    · rename_i till asks
      split
      · rename_i later
        exact .paused status asks later rfl
      · exact .goes status
    · exact .goes status

/-- A result that is concluded is recorded, whatever becomes of the run. -/
theorem conclude_pass (e : Engine) (x : Execution) (q : Pass) (n : Node) (en : Entry)
    (r : NodeResult) :
    ∃ p', (e.conclude x q n en r).pass? = some p' ∧
      p'.state.tasks = (e.record q n (e.comesTo q n en r)).state.tasks := by
  have conclusion := e.conclusion x q n en r
  generalize e.conclude x q n en r = φ at conclusion
  cases conclusion with
  | failed message status => exact ⟨_, rfl, rfl⟩
  | paused status asks later pass => exact ⟨_, rfl, by rw [pass]; rfl⟩
  | goes status => exact ⟨_, rfl, rfl⟩

/-- With silent hooks, the node in hand is executed in the state of the phase without the entry. -/
theorem Silent.hand_state (silent : e.Silent) (hand : e.hand? x φ = some (q, n, en))
    (hp : φ.pass? = some p) : q.state.tasks = p.state.tasks ∧ q.nextIndex = p.nextIndex := by
  obtain ⟨p', rest, left, rfl, -, -, -, -, -, rfl⟩ | ⟨r, rfl⟩ := hand?_cases hand
  · obtain rfl := Option.some.inj hp
    refine ⟨?_, rfl⟩
    rw [enter, silent.nodeStarts_state]
    rfl
  · obtain rfl := Option.some.inj hp
    exact ⟨rfl, rfl⟩

/-- A step that concludes an execution concludes it with the node in hand. -/
theorem hand_of_concludes? {name : String} {t : Task}
    (concludes : e.concludes? x φ = some (name, t)) :
    ∃ q n en r, e.hand? x φ = some (q, n, en) ∧ n.name = name ∧ e.comesTo q n en r = t ∧
      (e.step x φ = e.conclude x q n en r ∨
        e.step x φ = e.conclude x { q with canceled := true } n en r) := by
  obtain ⟨⟨q, n, en⟩, hand, concludes⟩ := Option.bind_eq_some_iff.1 concludes
  have steps := step_hand hand
  simp only at concludes
  generalize e.goesOn x q n en φ = a at concludes steps
  cases a with
  | returns r =>
    obtain ⟨name, task⟩ := Prod.mk.inj (Option.some.inj concludes)
    exact ⟨q, n, en, r, hand, name, task, .inl steps⟩
  | cancelsRun r =>
    obtain ⟨name, task⟩ := Prod.mk.inj (Option.some.inj concludes)
    exact ⟨q, n, en, r, hand, name, task, .inr steps⟩
  | lingers r => simp only [reduceCtorEq] at concludes
  | breaks message => simp only [reduceCtorEq] at concludes

/-- The step that records a task concludes its execution. -/
theorem Records.concludes? {t : Task} {s : RunState} (silent : e.Silent)
    (records : Records e x φ en n q t s) : e.concludes? x φ = some (n.name, t) := by
  obtain ⟨a, r, works, result, rfl⟩ := records.works
  cases works with
  | @taken p q en rest n going top left node enabled trims still index =>
    have hand : e.hand? x (.ready p) = some (e.enter p n, n, en) :=
      hand?_ready.2 ⟨rest, q.left, going, top, left, node, enabled, rfl⟩
    have state : (e.enter p n).state = q.state := by
      rw [still silent, enter, silent.nodeStarts_state, top]
      rfl
    have task : e.comesTo (e.enter p n) n en r
        = e.taskOf q en (r.settle n.onError (e.registry.outputs n.type)) := by
      rw [comesTo, taskOf, taskOf, index]
      rfl
    -- The node is attempted in the state that the hooks are shown, which silent hooks leave as it
    -- is.
    simp only [Engine.concludes?, hand, Option.bind_eq_bind, Option.bind_some, goesOn, state]
    rcases result with result | result <;> rw [result]
      <;> exact congrArg (fun t => some (n.name, t)) task
  | @lingered p en n r' canceled =>
    obtain rfl : r' = r := by
      rcases result with result | result
      · exact Attempt.returns.inj result
      · simp only [reduceCtorEq] at result
    simp only [Engine.concludes?, hand?, Option.bind_eq_bind, Option.bind_some, goesOn,
      canceled, if_true]
    rfl

/-- **A step records the task of the execution that it concludes, and nothing else.** -/
theorem tasks_step (silent : e.Silent) (hp : φ.pass? = some p)
    (hp' : (e.step x φ).pass? = some p') :
    (e.concludes? x φ = none ∧ p'.state.tasks = p.state.tasks) ∨
      ∃ name t, e.concludes? x φ = some (name, t) ∧ t.index = p.nextIndex ∧
        p'.state.tasks = p.state.tasks.record name t := by
  cases concludes : e.concludes? x φ with
  | none =>
    refine .inl ⟨rfl, ?_⟩
    cases (turn_step silent.watched x φ).effect hp hp' with
    | idle _ state => rw [state]
    | refused _ _ state => rw [state]; rfl
    | lingers _ _ _ _ state => rw [state]; rfl
    | bypassed _ _ _ _ state => rw [state]
    | failed _ records =>
      exact absurd (concludes.symm.trans (records.concludes? silent)) (Option.some_ne_none _).symm
    | completed _ records =>
      exact absurd (concludes.symm.trans (records.concludes? silent)) (Option.some_ne_none _).symm
  | some u =>
    obtain ⟨name, t⟩ := u
    refine .inr ⟨name, t, rfl, ?_⟩
    obtain ⟨q, n, en, r, hand, rfl, rfl, steps⟩ := hand_of_concludes? concludes
    obtain ⟨tasks, index⟩ := silent.hand_state hand hp
    refine ⟨index, ?_⟩
    -- Whether the node has canceled the run makes no difference to what is recorded.
    have after : ∀ q', q'.state = q.state → (e.record q' n (e.comesTo q n en r)).state.tasks
        = p.state.tasks.record n.name (e.comesTo q n en r) := by
      intro q' same
      rw [silent.record_state, same, ← tasks]
      rfl
    rcases steps with steps | steps
    · obtain ⟨p'', hpass, recorded⟩ := conclude_pass e x q n en r
      rw [steps, hpass] at hp'
      rw [← Option.some.inj hp', recorded, after q rfl]
    · obtain ⟨p'', hpass, recorded⟩ := conclude_pass e x { q with canceled := true } n en r
      rw [steps, hpass] at hp'
      rw [← Option.some.inj hp', recorded]
      exact after { q with canceled := true } rfl

/-- A step that leaves the tasks alone concludes nothing. -/
theorem concludes?_eq_none (silent : e.Silent) (hp : φ.pass? = some p)
    (hp' : (e.step x φ).pass? = some p') (same : p'.state.tasks = p.state.tasks) :
    e.concludes? x φ = none := by
  rcases tasks_step silent hp hp' with ⟨none, _⟩ | ⟨name, t, _, _, recorded⟩
  · exact none
  · exact absurd (recorded.symm.trans same) (RunData.record_ne _ name t)

/-! ## How a run stops -/

/-- A run that has ended stays where it is. -/
theorem step_of_rest (rests : ¬ φ.Going) : e.step x φ = φ := by
  cases φ with
  | ready p => exact absurd trivial rests
  | lingering p n en r => exact absurd trivial rests
  | stopped p c => rfl
  | broken m => rfl

/-- What a conclusion ends, it does not end as a cancellation. -/
theorem flag_of_conclude {q : Pass} {n : Node} {en : Entry} {result : NodeResult} {c : Bool}
    (stops : e.conclude x q n en result = .stopped p c) : c = false := by
  have conclusion := e.conclusion x q n en result
  rw [stops] at conclusion
  cases conclusion with
  | failed message status => rfl
  | paused status asks later pass => rfl

/-- A run that stops without taking an entry was canceled, or had nothing left to take. -/
theorem done_of_step (going : φ.Going) (next : φ.next? = none)
    (stops : e.step x φ = .stopped p p.canceled) :
    φ = .ready p ∧ (p.canceled = false → p.state.agenda.stack = []) := by
  cases φ with
  | ready q =>
    cases canceled : q.canceled with
    | true =>
      simp only [step, canceled, if_true] at stops
      obtain ⟨rfl, -⟩ := Phase.stopped.inj stops
      exact ⟨rfl, fun not => absurd (canceled.symm.trans not) Bool.noConfusion⟩
    | false =>
      have empty : q.state.agenda.stack = [] := by
        simpa only [Phase.next?, canceled, Bool.false_eq_true, if_false,
          List.head?_eq_none_iff] using next
      rw [step_done canceled empty] at stops
      obtain ⟨rfl, -⟩ := Phase.stopped.inj stops
      exact ⟨rfl, fun _ => empty⟩
  | lingering q n en result =>
    simp only [step] at stops
    split at stops
    · -- The node is over only because the run is canceled, so its conclusion does not end the run
      -- by that.
      rename_i canceled
      have flag := flag_of_conclude stops
      have kept := isCanceled_conclude e x q n en result
      rw [stops, Phase.isCanceled, flag, canceled] at kept
      exact absurd kept Bool.noConfusion
    · simp only [reduceCtorEq] at stops
  | stopped q c => exact going.elim
  | broken m => exact going.elim

/-! ## Trails -/

/-- A pass gets from one phase to another: the entries that it takes on the way, and the executions
that it concludes, the first one first. It may be canceled between any two steps. -/
inductive Trail (e : Engine) (x : Execution) (φ₀ : Phase) :
    List Entry → List (String × Task) → Phase → Prop
  | refl : Trail e x φ₀ [] [] φ₀
  | step {h : List Entry} {ts : List (String × Task)} {φ : Phase} (trail : Trail e x φ₀ h ts φ) :
      Trail e x φ₀ (h ++ φ.next?.toList) (ts ++ (e.concludes? x φ).toList) (e.step x φ)
  | cancel {h : List Entry} {ts : List (String × Task)} {φ : Phase} (trail : Trail e x φ₀ h ts φ) :
      Trail e x φ₀ h ts φ.cancel

variable {φ₀ : Phase} {h : List Entry} {ts : List (String × Task)}

/-- The trail of a pass goes along with its history. -/
theorem Trail.leads (trail : Trail e x φ₀ h ts φ) : Leads e x φ₀ h φ := by
  induction trail with
  | refl => exact .refl
  | step _ ih => exact ih.step
  | cancel _ ih => exact ih.cancel

/-- **Induction over a trail**, as over a history. -/
theorem Trail.induct (hk : e.Watched)
    (inv : List Entry → List (String × Task) → Phase → Pass → Prop)
    (start : ∀ p, φ₀.pass? = some p → inv [] [] φ₀ p)
    (step : ∀ {h ts φ p p'}, φ.pass? = some p → (e.step x φ).pass? = some p' → inv h ts φ p →
      Effect e x φ (e.step x φ) p p' →
      inv (h ++ φ.next?.toList) (ts ++ (e.concludes? x φ).toList) (e.step x φ) p')
    (ready : ∀ {h ts p}, inv h ts (.ready p) p →
      inv h ts (.ready { p with canceled := true }) { p with canceled := true })
    (lingering : ∀ {h ts p n en r}, inv h ts (.lingering p n en r) p →
      inv h ts (.lingering { p with canceled := true } n en r) { p with canceled := true })
    (trail : Trail e x φ₀ h ts φ) (hp : φ.pass? = some p) : inv h ts φ p := by
  -- As for histories, each step leads from a pass to a pass; besides, it records the task that it
  -- concludes.
  induction trail generalizing p with
  | refl => exact start p hp
  | @step h ts φ trail ih =>
    have turn := turn_step hk x φ
    obtain ⟨q, hq⟩ := turn.pass hp
    exact step hq hp (ih hq) (turn.effect hq hp)
  | @cancel h ts φ trail ih =>
    cases φ with
    | ready q =>
      obtain rfl := Option.some.inj hp
      exact ready (ih rfl)
    | lingering q n en r =>
      obtain rfl := Option.some.inj hp
      exact lingering (ih rfl)
    | stopped q c => exact ih hp
    | broken m => exact ih hp

/-- The executions that some steps conclude. -/
def concluded (e : Engine) (x : Execution) : Nat → Phase → List (String × Task)
  | 0, _ => []
  | n + 1, φ => (e.concludes? x φ).toList ++ e.concluded x n (e.step x φ)

theorem Trail.steps (trail : Trail e x φ₀ h ts φ) (n : Nat) :
    Trail e x φ₀ (h ++ e.taken x n φ) (ts ++ e.concluded x n φ) (e.steps x n φ) := by
  induction n generalizing h ts φ with
  | zero =>
    rw [taken, concluded, List.append_nil, List.append_nil]
    exact trail
  | succ n ih =>
    rw [taken, concluded, ← List.append_assoc, ← List.append_assoc]
    exact ih trail.step

/-! ## What a trail leaves on record -/

/-- The tasks of a pass that began with the tasks `d` are these and those of its trail. While the
pass goes on, the tasks of the trail are numbered one after another from the first free number on,
and the next number follows on them.
-/
structure Traced (d : RunData) (ts : List (String × Task)) (φ : Phase) (p : Pass) : Prop where
  tasks : p.state.tasks = d.recordAll ts
  numbers : ts.map (fun u => u.2.index) = List.range' d.nextIndex ts.length
  next : φ.Going → p.nextIndex = d.nextIndex + ts.length

/-- An execution that is concluded goes on record with the next number. -/
theorem Traced.record {d : RunData} {name : String} {t : Task} (traced : Traced d ts φ p)
    (going : φ.Going) (index : t.index = p.nextIndex)
    (tasks : p'.state.tasks = p.state.tasks.record name t)
    (next : φ'.Going → p'.nextIndex = p.nextIndex + 1) : Traced d (ts ++ [(name, t)]) φ' p' := by
  have free := traced.next going
  refine ⟨?_, ?_, fun going' => ?_⟩
  · rw [tasks, traced.tasks, RunData.recordAll_append]
    rfl
  · rw [List.map_append, traced.numbers, List.length_append, List.length_singleton,
      List.range'_concat, List.map_singleton, index, free, Nat.one_mul]
  · rw [next going', free, List.length_append, List.length_singleton, Nat.add_assoc]

/-- A step that concludes nothing leaves the record as it is. -/
theorem Traced.keep {d : RunData} (traced : Traced d ts φ p)
    (tasks : p'.state.tasks = p.state.tasks)
    (next : φ'.Going → φ.Going ∧ p'.nextIndex = p.nextIndex) : Traced d ts φ' p' :=
  ⟨tasks.trans traced.tasks, traced.numbers,
    fun going => (next going).2.trans (traced.next (next going).1)⟩

/-- **Every step puts on record what it concludes.** -/
theorem Traced.step {d : RunData} (silent : e.Silent) (traced : Traced d ts φ p)
    (hp : φ.pass? = some p) (hp' : (e.step x φ).pass? = some p')
    (effect : Effect e x φ (e.step x φ) p p') :
    Traced d (ts ++ (e.concludes? x φ).toList) (e.step x φ) p' := by
  have none := concludes?_eq_none (x := x) silent hp hp'
  generalize e.step x φ = φ' at effect hp'
  cases effect with
  -- A step that executes nothing leaves the tasks alone, so nothing is concluded in it.
  | idle next state phase =>
    rw [none (by rw [state]), Option.toList_none, List.append_nil]
    refine traced.keep (by rw [state]) fun going => ?_
    rcases phase with rfl | rfl
    · exact ⟨going, by rw [Option.some.inj (hp.symm.trans hp')]⟩
    · exact going.elim
  | refused next _ state phase =>
    rw [none (by rw [state]; rfl), Option.toList_none, List.append_nil]
    exact traced.keep (by rw [state]; rfl) fun going => (phase ▸ going).elim
  | lingers next _ _ _ state index =>
    rw [none (by rw [state]; rfl), Option.toList_none, List.append_nil]
    exact traced.keep (by rw [state]; rfl) fun _ => ⟨Phase.going_of_next? next, index⟩
  | bypassed next _ _ _ state index =>
    rw [none (by rw [state]), Option.toList_none, List.append_nil]
    exact traced.keep (by rw [state]) fun _ => ⟨Phase.going_of_next? next, index⟩
  -- A task is on record whether the run goes on after it or not.
  | failed holds records _ index _ state phase =>
    rw [records.concludes? silent, Option.toList_some]
    exact traced.record holds.going index (by rw [state]; rfl) fun going => (phase ▸ going).elim
  | completed holds records _ index _ state phase =>
    rw [records.concludes? silent, Option.toList_some]
    refine traced.record holds.going index (by rw [state]; rfl) fun going => ?_
    rcases phase with ⟨_, _, next, _⟩ | ⟨stopped, _⟩
    · exact next
    · exact (stopped ▸ going).elim

/-- A pass is traced at every moment. -/
theorem Trail.traced (silent : e.Silent) {s : RunState} {canceled : Bool}
    (trail : Trail e x (e.begin x s canceled) h ts φ) (hp : φ.pass? = some p) :
    Traced s.tasks ts φ p := by
  refine Trail.induct silent.watched (fun _ ts φ p => Traced s.tasks ts φ p) (fun p hp => ?_)
    (fun hp hp' traced effect => traced.step silent hp hp' effect)
    (fun traced => ⟨traced.tasks, traced.numbers, traced.next⟩)
    (fun traced => ⟨traced.tasks, traced.numbers, traced.next⟩) trail hp
  obtain ⟨q, begins, state, index, -⟩ := silent.begin x s canceled
  rw [begins] at hp ⊢
  obtain rfl := Option.some.inj hp
  exact ⟨congrArg RunState.tasks state, rfl, fun _ => index⟩

/-- A pass does what it is asked for on a workflow, and makes a run in the end: the entries that it
takes, and the executions that it concludes. It may be canceled at any moment. -/
inductive Completes (e : Engine) (w : Workflow) (r : Request) (h : List Entry)
    (ts : List (String × Task)) : Run → Prop
  | intro {x : Execution} {s : RunState} {canceled : Bool} {p : Pass} {c : Bool}
      (prepared : e.prepare w r = .ok (x, s))
      (trail : Trail e x (e.begin x s canceled) h ts (.stopped p c)) :
      Completes e w r h ts (e.finish x p c).1

/-- A pass that has left a trail and ends with a run has stopped, and the run and the calls are what
it ends with. -/
theorem Trail.of_ending {run : Run} {log : HookLog} (trail : Trail e x φ₀ h ts φ)
    (ends : e.ending x φ = .run run log) : ∃ h ts p c, Trail e x φ₀ h ts (.stopped p c) ∧
      run = (e.finish x p c).1 ∧ log = (e.finish x p c).2 := by
  have trail := trail.steps φ.bound
  simp only [ending] at ends
  split at ends
  · rename_i p c stops
    obtain ⟨rfl, rfl⟩ := Ending.run.inj ends
    rw [advance] at stops
    rw [stops] at trail
    exact ⟨_, _, p, c, trail, rfl, rfl⟩
  · simp only [reduceCtorEq] at ends
  · simp only [reduceCtorEq] at ends
  · simp only [reduceCtorEq] at ends

/-- Every run that an engine gives back is made by such a pass. -/
theorem completes_of_perform {w : Workflow} {r : Request} {canceled : Bool} {run : Run}
    {log : HookLog} (performs : e.perform w r canceled = .ok (.run run log)) :
    ∃ h ts, e.Completes w r h ts run := by
  obtain ⟨x, s, prepared, ends⟩ := prepare_of_perform performs
  have start : e.Trail x (e.begin x s canceled) [] [] (e.begin x s canceled) := .refl
  obtain ⟨h, ts, p, c, trail, rfl, -⟩ := start.of_ending ends
  exact ⟨h, ts, .intro prepared trail⟩

end Engine

/-- The tasks that are on record when something is asked for. -/
def Request.tasks : Request → RunData
  | start .. => []
  | rerun _ _ _ prior => prior
  | resume run => run.state.tasks

namespace Engine

/-- A pass begins with the tasks that are on record. -/
theorem prepare_tasks {e : Engine} {w : Workflow} {r : Request} {x : Execution} {s : RunState}
    (prepared : e.prepare w r = .ok (x, s)) : s.tasks = r.tasks := by
  cases r with
  | start id mode startNode items =>
    obtain ⟨_, _, _, rfl⟩ := prepare_start prepared
    rfl
  | rerun id mode startNode prior =>
    obtain ⟨_, rfl⟩ := prepare_rerun prepared
    rfl
  | resume run =>
    obtain ⟨_, _, rfl⟩ := prepare_resume prepared
    rfl

/-- **The tasks of a run are those that were on record and those of its trail**, and the latter are
numbered one after another from the first free number on. -/
theorem Completes.tasks {e : Engine} {w : Workflow} {r : Request} {h : List Entry}
    {ts : List (String × Task)} {run : Run} (silent : e.Silent)
    (completes : e.Completes w r h ts run) :
    run.state.tasks = r.tasks.recordAll ts ∧
      ts.map (fun u => u.2.index) = List.range' r.tasks.nextIndex ts.length := by
  cases completes with
  | @intro x s canceled p c prepared trail =>
    have traced := trail.traced silent rfl
    rw [prepare_tasks prepared] at traced
    exact ⟨(congrArg RunState.tasks (silent.finish x p c).state).trans traced.tasks, traced.numbers⟩

end Engine

/-! ## The detour, resumed by an engine whose nodes fail -/

namespace Detour

/-- Fails whatever it is given. -/
def fault : NodeType where
  spec := { name := "fault", displayName := "Fault" }
  execute _ := .returns (.failed ["No way"])

/-- The pass that Start pauses. -/
def halted : Pass := ((engine nap).step execution (first nap)).pass?.get rfl

/-- The run that it makes. -/
def paused : Run := ((engine nap).finish execution halted false).1

/-- The first phase of the resumed run. -/
def second : Phase := (engine fault).begin execution { paused.state with waitTill := none } false

/-- The pass that fails at J: A is disabled, so it hands on what Start has put out. -/
def faulty : Pass := ((engine fault).steps execution 2 second).pass?.get rfl

/-- The run that it makes. -/
def failed : Run := ((engine fault).finish execution faulty false).1

theorem pauses : (engine nap).Completes workflow (.start "run" .manual (some "Start") none)
    ((engine nap).taken execution 1 (first nap))
    ((engine nap).concluded execution 1 (first nap)) paused := by
  have start : (engine nap).Trail execution (first nap) [] [] (first nap) := .refl
  have trail := start.steps 1
  have stops : (engine nap).steps execution 1 (first nap) = .stopped halted false := rfl
  rw [stops] at trail
  exact .intro (prepared nap) trail

theorem fails : (engine fault).Completes workflow (.resume paused)
    ((engine fault).taken execution 2 second)
    ((engine fault).concluded execution 2 second) failed := by
  have start : (engine fault).Trail execution second [] [] second := .refl
  have trail := start.steps 2
  have stops : (engine fault).steps execution 2 second = .stopped faulty false := rfl
  have prepared : (engine fault).prepare workflow (.resume paused)
      = .ok (execution, { paused.state with waitTill := none }) := rfl
  rw [stops] at trail
  exact .intro prepared trail

end Detour

end Conveyor
