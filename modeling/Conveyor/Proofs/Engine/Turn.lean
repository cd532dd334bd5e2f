/-
What one step of a run can do.

A step is a chain of choices: whether the run was canceled, whether an entry is left, whether
another one may be taken, whether its node is there and enabled, what its execution comes to, and
what the hooks make of all this. Nothing about runs is proved by going through that chain again.
`Turn` lists what can come out of it, with the guards that led there and the state that is left, and
`turn_step` says that a step of the engine is always one of these. Every invariant is then a case
analysis over `Turn`.

Hooks are shown the state of a run and may change it. `Watches` says what is asked of them here: a
hook may drop entries from the stack, as a host does that wants a branch not to be followed, and it
changes nothing else. Hooks that leave the state alone are `Silent`, and those watch as well.
-/
import Conveyor.Engine.Run
import Mathlib.Tactic.Set

set_option autoImplicit false

namespace Conveyor

/-! ## Hooks that watch -/

namespace RunState

/-- A state with another stack. -/
def withStack (s : RunState) (stack : List Entry) : RunState :=
  { s with agenda := { s.agenda with stack := stack } }

/-- A state in which a task of a node is recorded. -/
def recorded (s : RunState) (node : String) (t : Task) : RunState :=
  { s with tasks := s.tasks.record node t, lastNode := some node }

/-- Nothing but entries of the stack is lost on the way from one state to another. -/
def Trims (s s' : RunState) : Prop :=
  ∃ stack, stack.Sublist s.agenda.stack ∧ s' = s.withStack stack

theorem Trims.refl (s : RunState) : s.Trims s := ⟨s.agenda.stack, List.Sublist.refl _, rfl⟩

theorem Trims.trans {s₁ s₂ s₃ : RunState} (h₁ : s₁.Trims s₂) (h₂ : s₂.Trims s₃) : s₁.Trims s₃ := by
  obtain ⟨stack₂, hs₂, rfl⟩ := h₁
  obtain ⟨stack₃, hs₃, rfl⟩ := h₂
  exact ⟨stack₃, hs₃.trans hs₂, rfl⟩

end RunState

/-- A hook that watches a run: it may drop entries from the stack, and leaves all else as it was. -/
structure Hook.Watches (k : Hook) : Prop where
  runStarts : ∀ (w : Workflow) (s : RunState), s.Trims (k.runStarts w s).2
  nodeStarts : ∀ (node : String) (s : RunState), s.Trims (k.nodeStarts node s).2
  nodeEnds : ∀ (node : String) (t : Task) (s : RunState), s.Trims (k.nodeEnds node t s).2
  runEnds : ∀ (w : Workflow) (r : Run), (k.runEnds w r).2.status = r.status ∧
    r.state.Trims (k.runEnds w r).2.state

/-- Two runs are the same as far as a later pass can tell. -/
structure Run.Agrees (r r' : Run) : Prop where
  id : r'.id = r.id
  mode : r'.mode = r.mode
  status : r'.status = r.status
  state : r'.state = r.state

theorem Run.Agrees.refl (r : Run) : r.Agrees r := ⟨rfl, rfl, rfl, rfl⟩

theorem Run.Agrees.trans {r₁ r₂ r₃ : Run} (h₁ : r₁.Agrees r₂) (h₂ : r₂.Agrees r₃) : r₁.Agrees r₃ :=
  ⟨h₂.id.trans h₁.id, h₂.mode.trans h₁.mode, h₂.status.trans h₁.status, h₂.state.trans h₁.state⟩

/-- A hook that changes nothing of a run that a later pass could see. -/
structure Hook.Silent (k : Hook) : Prop where
  runStarts : ∀ w s, (k.runStarts w s).2 = s
  nodeStarts : ∀ node s, (k.nodeStarts node s).2 = s
  nodeEnds : ∀ node t s, (k.nodeEnds node t s).2 = s
  runEnds : ∀ (w : Workflow) (r : Run), r.Agrees (k.runEnds w r).2

theorem Hook.Silent.watches {k : Hook} (h : k.Silent) : k.Watches where
  runStarts w s := by rw [h.runStarts]; exact .refl s
  nodeStarts node s := by rw [h.nodeStarts]; exact .refl s
  nodeEnds node t s := by rw [h.nodeEnds]; exact .refl s
  runEnds w r := ⟨(h.runEnds w r).status, by rw [(h.runEnds w r).state]; exact .refl _⟩

/-- What every hook of a list keeps, calling them all keeps. -/
theorem callHooks_rel {σ : Type} {R : σ → σ → Prop} (refl : ∀ s, R s s)
    (trans : ∀ {s₁ s₂ s₃}, R s₁ s₂ → R s₂ s₃ → R s₁ s₃) (stage : Stage) (n : Nat)
    {actions : List (HookAction σ)} (h : ∀ f ∈ actions, ∀ s, R s (f s).2) (s : σ) :
    R s (callHooks stage n actions s).2 := by
  induction actions generalizing n s with
  | nil => exact refl s
  | cons f fs ih =>
    have hf : R s (f s).2 := h f List.mem_cons_self s
    exact trans hf (ih (n + 1) (fun g hg => h g (List.mem_cons_of_mem f hg)) (f s).2)

namespace Engine

/-- All hooks of an engine watch. -/
def Watched (e : Engine) : Prop := ∀ k ∈ e.hooks, k.Watches

/-- All hooks of an engine are silent. -/
def Silent (e : Engine) : Prop := ∀ k ∈ e.hooks, k.Silent

/-- The run that a pass makes has the state of the pass, but for entries that hooks have dropped. -/
theorem Watched.finish {e : Engine} (h : e.Watched) (x : Execution) (p : Pass) (canceled : Bool) :
    p.state.Trims (e.finish x p canceled).1.state := by
  refine (callHooks_rel (σ := Run) (R := fun r r' => r'.status = r.status ∧ r.state.Trims r'.state)
    (fun r => ⟨rfl, .refl _⟩) (fun h₁ h₂ => ⟨h₂.1.trans h₁.1, h₁.2.trans h₂.2⟩) _ 0 ?_
    (e.runOf x p.state canceled)).2
  intro f hf r
  obtain ⟨k, hk, rfl⟩ := List.mem_map.1 hf
  exact (h k hk).runEnds x.graph.workflow r

theorem Silent.watched {e : Engine} (h : e.Silent) : e.Watched := fun k hk => (h k hk).watches

/-- Calling hooks of an engine that is watched trims the state. -/
theorem Watched.callHooks {e : Engine} (h : e.Watched) (stage : Stage)
    (act : Hook → HookAction RunState)
    (hact : ∀ k : Hook, k.Watches → ∀ s : RunState, s.Trims (act k s).2) (s : RunState) :
    s.Trims (Conveyor.callHooks stage 0 (e.hooks.map act) s).2 := by
  refine callHooks_rel RunState.Trims.refl RunState.Trims.trans stage 0 (fun f hf s => ?_) s
  obtain ⟨k, hk, rfl⟩ := List.mem_map.1 hf
  exact hact k (h k hk) s

/-- Calling hooks of an engine that is silent changes nothing. -/
theorem Silent.callHooks {e : Engine} (h : e.Silent) (stage : Stage)
    (act : Hook → HookAction RunState) (hact : ∀ k : Hook, k.Silent → ∀ s, (act k s).2 = s)
    (s : RunState) : (Conveyor.callHooks stage 0 (e.hooks.map act) s).2 = s := by
  refine Eq.symm (callHooks_rel (fun _ => rfl) Eq.trans stage 0 (fun f hf s => ?_) s)
  obtain ⟨k, hk, rfl⟩ := List.mem_map.1 hf
  exact (hact k (h k hk) s).symm

end Engine

/-! ## Looking at a phase -/

namespace Phase

/-- The pass of a run under way, unless a node broke down. -/
def pass? : Phase → Option Pass
  | ready p | lingering p .. | stopped p _ => some p
  | broken _ => none

/-- The entry that the next step takes from the stack. -/
def next? : Phase → Option Entry
  | ready p => if p.canceled then none else p.state.agenda.stack.head?
  | lingering .. | stopped .. | broken _ => none

/-- A run is still under way. -/
def Going : Phase → Prop
  | ready _ | lingering .. => True
  | stopped .. | broken _ => False

/-- Whether the next step would take an entry and the run may not take another one. -/
def exhausted (φ : Phase) : Bool :=
  match φ with
  | ready p => φ.next?.isSome && p.left == 0
  | lingering .. | stopped .. | broken _ => false

theorem exhausted_iff {φ : Phase} :
    φ.exhausted = true ↔ ∃ p, φ = ready p ∧ φ.next?.isSome ∧ p.left = 0 := by
  cases φ with
  | ready p => simp only [exhausted, Bool.and_eq_true, beq_iff_eq, ready.injEq, exists_eq_left']
  | lingering => simp only [exhausted, Bool.false_eq_true, reduceCtorEq, false_and, exists_false]
  | stopped => simp only [exhausted, Bool.false_eq_true, reduceCtorEq, false_and, exists_false]
  | broken => simp only [exhausted, Bool.false_eq_true, reduceCtorEq, false_and, exists_false]

theorem next?_ready {p : Pass} {en : Entry} {rest : List Entry} (going : p.canceled = false)
    (top : p.state.agenda.stack = en :: rest) : (ready p).next? = some en := by
  simp only [next?, going, top, List.head?_cons, Bool.false_eq_true, if_false]

/-- What a step takes from the stack is on top of it. -/
theorem next?_sublist {φ : Phase} {p : Pass} (hp : φ.pass? = some p) :
    φ.next?.toList.Sublist p.state.agenda.stack := by
  cases φ with
  | ready q =>
    obtain rfl := Option.some.inj hp
    simp only [next?]
    split
    · exact List.nil_sublist _
    · cases q.state.agenda.stack with
      | nil => exact List.nil_sublist _
      | cons en rest => exact List.singleton_sublist.2 List.mem_cons_self
  | lingering => exact List.nil_sublist _
  | stopped => exact List.nil_sublist _
  | broken => exact List.nil_sublist _

/-- An entry is taken only by a run that is ready for it. -/
theorem ready_of_next? {φ : Phase} {en : Entry} (next : φ.next? = some en) : ∃ p, φ = ready p := by
  cases φ with
  | ready p => exact ⟨p, rfl⟩
  | lingering => simp only [next?, reduceCtorEq] at next
  | stopped => simp only [next?, reduceCtorEq] at next
  | broken => simp only [next?, reduceCtorEq] at next

theorem going_of_next? {φ : Phase} {en : Entry} (next : φ.next? = some en) : φ.Going := by
  obtain ⟨p, rfl⟩ := ready_of_next? next
  trivial

end Phase

/-! ## The turns of a run -/

namespace Engine

/-- In a phase, the entry `en` is in the hands of the enabled node `n`; `q` is the pass and `a` how
its execution goes on. Either the entry is taken in this step, or the node has lingered with it. -/
inductive Works (e : Engine) (x : Execution) : Phase → Entry → Node → Pass → Attempt → Prop
  | taken {p q : Pass} {en : Entry} {rest : List Entry} {n : Node} (going : p.canceled = false)
      (top : p.state.agenda.stack = en :: rest) (left : p.left = q.left + 1)
      (node : x.graph.node? en.node = some n) (enabled : n.disabled = false)
      (trims : (p.state.withStack rest).Trims q.state)
      (still : e.Silent → q.state = p.state.withStack rest) (index : q.nextIndex = p.nextIndex) :
      Works e x (.ready p) en n q (e.attempt x q.state n en)
  | lingered {p : Pass} {en : Entry} {n : Node} {r : NodeResult} (canceled : p.canceled = true) :
      Works e x (.lingering p n en r) en n p (.returns r)

/-- The execution of an entry comes to a task, which is recorded and told to the hooks; `s` is the
state after them. -/
structure Records (e : Engine) (x : Execution) (φ : Phase) (en : Entry) (n : Node) (q : Pass)
    (t : Task) (s : RunState) : Prop where
  works : ∃ a r, Works e x φ en n q a ∧ (a = .returns r ∨ a = .cancelsRun r) ∧
    t = e.taskOf q en (r.settle n.onError (e.registry.outputs n.type))
  trims : (q.state.recorded n.name t).Trims s
  still : e.Silent → s = q.state.recorded n.name t

/-- What a step can lead to. -/
inductive Turn (e : Engine) (x : Execution) : Phase → Phase → Prop
  /-- The run has ended, or a node lingers. -/
  | still {φ : Phase} (idle : φ.next? = none) : Turn e x φ φ
  | ended {p : Pass} (done : p.canceled = true ∨ p.state.agenda.stack = []) :
      Turn e x (.ready p) (.stopped p p.canceled)
  /-- The entry that was taken is one too many, or its node is not there. -/
  | refused {p q : Pass} {en : Entry} {rest : List Entry} {err : RunError}
      (going : p.canceled = false) (top : p.state.agenda.stack = en :: rest)
      (why : p.left = 0 ∨ x.graph.node? en.node = none)
      (state : q.state = { p.state.withStack rest with error := some err })
      (blames : err.node = some en.node) (limit : p.left = 0 → err.message = e.limitMessage) :
      Turn e x (.ready p) (.stopped q false)
  /-- The first input of a disabled node is handed on. -/
  | bypassed {p q : Pass} {en : Entry} {rest : List Entry} {n : Node} (going : p.canceled = false)
      (top : p.state.agenda.stack = en :: rest) (left : p.left = q.left + 1)
      (node : x.graph.node? en.node = some n) (disabled : n.disabled = true)
      (state : q.state = { p.state with
        agenda := x.graph.complete (p.state.withStack rest).agenda n.name [en.inputs.headD []] })
      (index : q.nextIndex = p.nextIndex) : Turn e x (.ready p) (.ready q)
  | lingers {p q : Pass} {en : Entry} {n : Node} {r : NodeResult}
      (works : Works e x (.ready p) en n q (.lingers r)) (canceled : q.canceled = p.canceled) :
      Turn e x (.ready p) (.lingering q n en r)
  | breaks {p q : Pass} {en : Entry} {n : Node} {message : String}
      (works : Works e x (.ready p) en n q (.breaks message)) :
        Turn e x (.ready p) (.broken message)
  | failed {φ : Phase} {q q' : Pass} {en : Entry} {n : Node} {t : Task} {s : RunState}
      {err : RunError} (records : Records e x φ en n q t s) (status : t.status = .error)
      (state : q'.state = { s with error := some err }) (blames : err.node = some n.name) :
      Turn e x φ (.stopped q' false)
  /-- The output of the node is delivered. -/
  | completed {φ : Phase} {q q' : Pass} {en : Entry} {n : Node} {t : Task} {s : RunState}
      (records : Records e x φ en n q t s) (status : t.status = .success)
      (state : q'.state = { s with agenda := x.graph.complete s.agenda n.name t.output })
      (index : q'.nextIndex = q.nextIndex + 1) (left : q'.left = q.left) : Turn e x φ (.ready q')
  /-- The output of the node is delivered, and the run pauses. -/
  | paused {φ : Phase} {q q' : Pass} {en : Entry} {n : Node} {t : Task} {s : RunState}
      {till : Time.Instant} (records : Records e x φ en n q t s) (status : t.status = .success)
      (state : q'.state =
        { s with agenda := x.graph.complete s.agenda n.name t.output, waitTill := some till }) :
      Turn e x φ (.stopped q' false)

/-- A task has the number that was free, and the sources of the entry. -/
theorem Records.task {e : Engine} {x : Execution} {φ : Phase} {en : Entry} {n : Node} {q : Pass}
    {t : Task} {s : RunState} (h : Records e x φ en n q t s) :
    t.index = q.nextIndex ∧ t.sources = en.sources := by
  obtain ⟨_, _, _, _, rfl⟩ := h.works
  exact ⟨rfl, rfl⟩

/-! ## Every step is a turn -/

/-- What follows an execution that has come to a result. -/
theorem turn_conclude {e : Engine} {x : Execution} {φ : Phase} {en : Entry} {n : Node} {q : Pass}
    {a : Attempt} {r : NodeResult} (hk : e.Watched) (works : Works e x φ en n q a)
    (result : a = .returns r ∨ a = .cancelsRun r) : Turn e x φ (e.conclude x q n en r) := by
  set t := e.taskOf q en (r.settle n.onError (e.registry.outputs n.type)) with ht
  have trims : (q.state.recorded n.name t).Trims (e.record q n t).state :=
    hk.callHooks _ _ (fun k h s => h.nodeEnds n.name t s) _
  have still : e.Silent → (e.record q n t).state = q.state.recorded n.name t := fun silent =>
    silent.callHooks _ _ (fun _ k => k.nodeEnds n.name t) _
  have records : Records e x φ en n q t (e.record q n t).state :=
    ⟨⟨a, r, works, result, ht⟩, trims, still⟩
  rw [conclude]
  simp only [← ht]
  cases status : t.status with
  | error => exact .failed records status rfl rfl
  | success =>
    simp only [pause]
    split
    · split
      · exact .paused records status rfl
      · exact .completed records status rfl rfl rfl
    · exact .completed records status rfl rfl rfl

/-- What follows the execution of an enabled node. That the node may have canceled the run meanwhile
is seen at the next turn only. -/
theorem turn_execute {e : Engine} {x : Execution} {p : Pass} {en : Entry} {rest : List Entry}
    {n : Node} {left : Nat} (hk : e.Watched) (going : p.canceled = false)
    (top : p.state.agenda.stack = en :: rest) (hleft : p.left = left + 1)
    (node : x.graph.node? en.node = some n) (enabled : n.disabled = false) :
    Turn e x (.ready p)
      (e.execute x
        { p.withAgenda { p.state.agenda with stack := rest } with left := left } n en) := by
  have trims := hk.callHooks (.nodeStarts n.name) (fun h => h.nodeStarts n.name)
    (fun k h s => h.nodeStarts n.name s) (p.state.withStack rest)
  have still := fun silent : e.Silent => silent.callHooks (.nodeStarts n.name)
    (fun h => h.nodeStarts n.name) (fun _ k => k.nodeStarts n.name) (p.state.withStack rest)
  simp only [execute]
  -- The node is executed in the state that the hooks before it have left.
  set q :=
    ({ p.withAgenda { p.state.agenda with stack := rest } with left := left } : Pass).callHooks
    (.nodeStarts n.name) (e.hooks.map fun h => h.nodeStarts n.name) with hq
  have works : Works e x (.ready p) en n q (e.attempt x q.state n en) :=
    .taken going top hleft node enabled trims still rfl
  have works' : Works e x (.ready p) en n { q with canceled := true } (e.attempt x q.state n en) :=
    .taken (q := { q with canceled := true }) going top hleft node enabled trims still rfl
  split
  · rename_i r hr
    exact turn_conclude hk works (.inl hr)
  · rename_i r hr
    exact turn_conclude hk works' (.inr hr)
  · rename_i r hr
    exact .lingers (hr ▸ works) rfl
  · rename_i message hm
    exact .breaks (hm ▸ works)

/-- **Every step of an engine that is watched is a turn.** -/
theorem turn_step {e : Engine} (hk : e.Watched) (x : Execution) (φ : Phase) :
    Turn e x φ (e.step x φ) := by
  -- The cases are those of the step in its order: canceled, at the end, the limit spent, a missing
  -- node, a disabled one, and one that is executed.
  cases φ with
  | ready p =>
    simp only [step]
    cases going : p.canceled with
    | true =>
      simp only [if_true]
      exact going ▸ .ended (.inl going)
    | false =>
      simp only [Bool.false_eq_true, if_false]
      split
      · rename_i top
        exact going ▸ .ended (.inr top)
      · rename_i en rest top
        simp only [take]
        split
        · rename_i hleft
          exact .refused going top (.inl hleft) rfl rfl fun _ => rfl
        -- A missing node is refused with an entry to spare, so the limit has nothing to do with it.
        · rename_i left hleft
          split
          · rename_i node
            refine .refused going top (.inr node) rfl rfl fun spent => ?_
            exact absurd (spent.symm.trans hleft) (Nat.succ_ne_zero left).symm
          · rename_i n node
            split
            · rename_i disabled
              exact .bypassed going top hleft node disabled rfl rfl
            · rename_i enabled
              exact turn_execute hk going top hleft node (by simpa using enabled)
  | lingering p n en r =>
    simp only [step]
    split
    · rename_i canceled
      exact turn_conclude hk (.lingered canceled) (.inl rfl)
    · exact .still rfl
  | stopped p c => exact .still rfl
  | broken m => exact .still rfl

/-! ## The effect of a turn

A turn is described by what was done. What an invariant needs is what has become of the state, and
there the hooks only make the difference of a shorter stack: `stack` is what they have left of the
entries below the one that was taken, and silent hooks leave all of them. -/

/-- An entry is in the hands of the enabled node it is for: it is about to be taken, or it has
been. -/
inductive Holds (x : Execution) : Phase → Entry → Node → Prop
  | taking {φ : Phase} {en : Entry} {n : Node} (next : φ.next? = some en)
      (node : x.graph.node? en.node = some n) (enabled : n.disabled = false) : Holds x φ en n
  | lingering {p : Pass} {en : Entry} {n : Node} {r : NodeResult} :
      Holds x (.lingering p n en r) en n

theorem Holds.going {x : Execution} {φ : Phase} {en : Entry} {n : Node} (holds : Holds x φ en n) :
    φ.Going := by
  cases holds with
  | taking next => exact Phase.going_of_next? next
  | lingering => trivial

/-- What has become of a pass `p` in a step from `φ` to `φ'`. -/
inductive Effect (e : Engine) (x : Execution) (φ φ' : Phase) (p p' : Pass) : Prop
  | idle (next : φ.next? = none) (state : p'.state = p.state)
      (phase : φ' = φ ∨ φ' = .stopped p p.canceled)
  | refused {en : Entry} {stack : List Entry} {err : RunError} (next : φ.next? = some en)
      (below : (φ.next?.toList ++ stack).Sublist p.state.agenda.stack)
      (state : p'.state = { p.state.withStack stack with error := some err })
      (phase : φ' = .stopped p' false)
      (whole : e.Silent → p.state.agenda.stack = φ.next?.toList ++ stack)
      (why : p.left = 0 ∨ x.graph.node? en.node = none) (blames : err.node = some en.node)
      (limit : p.left = 0 → err.message = e.limitMessage)
  | lingers {en : Entry} {n : Node} {stack : List Entry} {r : NodeResult} (next : φ.next? = some en)
      (below : (φ.next?.toList ++ stack).Sublist p.state.agenda.stack)
      (node : x.graph.node? en.node = some n) (enabled : n.disabled = false)
      (state : p'.state = p.state.withStack stack) (index : p'.nextIndex = p.nextIndex)
      (left : p.left = p'.left + 1) (phase : φ' = .lingering p' n en r)
      (canceled : p'.canceled = p.canceled)
      (whole : e.Silent → p.state.agenda.stack = φ.next?.toList ++ stack)
  | bypassed {en : Entry} {n : Node} {stack : List Entry} (next : φ.next? = some en)
      (below : (φ.next?.toList ++ stack).Sublist p.state.agenda.stack)
      (node : x.graph.node? en.node = some n) (disabled : n.disabled = true)
      (state : p'.state = { p.state with
        agenda := x.graph.complete (p.state.withStack stack).agenda n.name [en.inputs.headD []] })
      (index : p'.nextIndex = p.nextIndex) (left : p.left = p'.left + 1) (phase : φ' = .ready p')
      (whole : e.Silent → p.state.agenda.stack = φ.next?.toList ++ stack)
  | failed {en : Entry} {n : Node} {q : Pass} {t : Task} {s : RunState} {stack : List Entry}
      {err : RunError} (holds : Holds x φ en n) (records : Records e x φ en n q t s)
      (below : (φ.next?.toList ++ stack).Sublist p.state.agenda.stack)
      (index : t.index = p.nextIndex) (status : t.status = .error)
      (state : p'.state = { (p.state.recorded n.name t).withStack stack with error := some err })
      (phase : φ' = .stopped p' false)
      (whole : e.Silent → p.state.agenda.stack = φ.next?.toList ++ stack)
      (blames : err.node = some n.name)
  | completed {en : Entry} {n : Node} {q : Pass} {t : Task} {s : RunState} {stack : List Entry}
      {till : Option Time.Instant} (holds : Holds x φ en n) (records : Records e x φ en n q t s)
      (below : (φ.next?.toList ++ stack).Sublist p.state.agenda.stack)
      (index : t.index = p.nextIndex) (status : t.status = .success)
      (state : p'.state = { p.state.recorded n.name t with
        agenda := x.graph.complete (p.state.withStack stack).agenda n.name t.output
        waitTill := till })
      (phase : (φ' = .ready p' ∧ till = p.state.waitTill ∧ p'.nextIndex = p.nextIndex + 1 ∧
          p.left = p'.left + φ.next?.toList.length) ∨
        (φ' = .stopped p' false ∧ till.isSome))
      (whole : e.Silent → p.state.agenda.stack = φ.next?.toList ++ stack)

/-- What a node is executed in is the state of the phase, but for entries that are no longer on the
stack. -/
theorem Works.state {e : Engine} {x : Execution} {φ : Phase} {p q : Pass} {en : Entry} {n : Node}
    {a : Attempt} (works : Works e x φ en n q a) (hp : φ.pass? = some p) :
    Holds x φ en n ∧ q.nextIndex = p.nextIndex ∧ p.left = q.left + φ.next?.toList.length ∧
      ∃ stack, (φ.next?.toList ++ stack).Sublist p.state.agenda.stack ∧
        q.state = p.state.withStack stack ∧
        (e.Silent → p.state.agenda.stack = φ.next?.toList ++ stack) := by
  -- An entry that is taken leaves the stack, and hooks may trim what is below it; one that lingers
  -- has left it before.
  cases works with
  | taken going top left node enabled trims still index =>
    obtain rfl := Option.some.inj hp
    have next := Phase.next?_ready going top
    obtain ⟨stack, hsub, hq⟩ := trims
    refine ⟨.taking next node enabled, index, ?_, stack, ?_, hq, fun silent => ?_⟩
    · rw [next]
      exact left
    · rw [next, top]
      exact hsub.cons_cons _
    -- Nothing is trimmed where the engine is silent.
    · have same := congrArg (fun s : RunState => s.agenda.stack) (hq.symm.trans (still silent))
      rw [next, top, show stack = _ from same]
      rfl
  | lingered canceled =>
    obtain rfl := Option.some.inj hp
    exact ⟨.lingering, rfl, rfl, _, List.Sublist.refl _, rfl, fun _ => rfl⟩

/-- The state after a record is that of the phase with the task recorded, but for entries of the
stack. -/
theorem Records.state {e : Engine} {x : Execution} {φ : Phase} {p q : Pass} {en : Entry} {n : Node}
    {t : Task} {s : RunState} (records : Records e x φ en n q t s) (hp : φ.pass? = some p) :
    Holds x φ en n ∧ q.nextIndex = p.nextIndex ∧ p.left = q.left + φ.next?.toList.length ∧
      ∃ stack, (φ.next?.toList ++ stack).Sublist p.state.agenda.stack ∧
        s = (p.state.recorded n.name t).withStack stack ∧
        (e.Silent → p.state.agenda.stack = φ.next?.toList ++ stack) := by
  obtain ⟨a, r, works, -, -⟩ := records.works
  obtain ⟨holds, index, left, stack, hsub, hq, whole⟩ := works.state hp
  obtain ⟨stack', hsub', hs⟩ := records.trims
  have still := records.still
  rw [hq] at hsub' hs still
  refine ⟨holds, index, left, stack', (hsub'.append_left _).trans hsub, hs, fun silent => ?_⟩
  have same := congrArg (fun s : RunState => s.agenda.stack) (hs.symm.trans (still silent))
  rw [whole silent, show stack' = _ from same]
  rfl

/-- Every turn has its effect. -/
theorem Turn.effect {e : Engine} {x : Execution} {φ φ' : Phase} {p p' : Pass} (turn : Turn e x φ φ')
    (hp : φ.pass? = some p) (hp' : φ'.pass? = some p') : Effect e x φ φ' p p' := by
  -- The passes before and after are read off the constructor; what the records say of them is
  -- `Records.state`.
  cases turn with
  | still idle =>
    obtain rfl := Option.some.inj (hp.symm.trans hp')
    exact .idle idle rfl (.inl rfl)
  | ended done =>
    obtain rfl := Option.some.inj hp
    obtain rfl := Option.some.inj hp'
    refine .idle ?_ rfl (.inr rfl)
    rcases done with done | done <;> simp [Phase.next?, done]
  | refused going top why state blames limit =>
    obtain rfl := Option.some.inj hp
    obtain rfl := Option.some.inj hp'
    have next := Phase.next?_ready going top
    exact .refused next (by rw [next, top]; exact List.Sublist.refl _) state rfl
      (fun _ => by rw [next, top]; rfl) why blames limit
  | bypassed going top left node disabled state index =>
    obtain rfl := Option.some.inj hp
    obtain rfl := Option.some.inj hp'
    have next := Phase.next?_ready going top
    exact .bypassed next (by rw [next, top]; exact List.Sublist.refl _) node disabled state index
      left rfl fun _ => by rw [next, top]; rfl
  | lingers works canceled =>
    obtain rfl := Option.some.inj hp
    obtain rfl := Option.some.inj hp'
    obtain ⟨holds, index, left, stack, hsub, hq, whole⟩ := works.state rfl
    cases holds with
    | taking next node enabled =>
      rw [next] at left
      exact .lingers next hsub node enabled hq index left rfl canceled whole
  | breaks works => simp only [Phase.pass?, reduceCtorEq] at hp'
  | failed records status state blames =>
    obtain rfl := Option.some.inj hp'
    obtain ⟨holds, index, _, stack, hsub, rfl, whole⟩ := records.state hp
    exact .failed holds records hsub (records.task.1.trans index) status state rfl whole blames
  | completed records status state index' left' =>
    obtain rfl := Option.some.inj hp'
    obtain ⟨holds, index, left, stack, hsub, rfl, whole⟩ := records.state hp
    refine .completed holds records hsub (records.task.1.trans index) status state
      (.inl ⟨rfl, rfl, by rw [index', index], by rw [left, left']⟩) whole
  | paused records status state =>
    obtain rfl := Option.some.inj hp'
    obtain ⟨holds, index, _, stack, hsub, rfl, whole⟩ := records.state hp
    exact .completed holds records hsub (records.task.1.trans index) status state (.inr ⟨rfl, rfl⟩)
      whole

/-- How many entries may still be taken after a step. -/
theorem Effect.left {e : Engine} {x : Execution} {φ φ' : Phase} {p p' : Pass}
    (effect : Effect e x φ φ' p p') (hp : φ.pass? = some p) (hp' : φ'.pass? = some p')
    (going : φ'.Going) :
    φ.Going ∧ p.left = p'.left + φ.next?.toList.length := by
  -- Only a run that goes on counts: one entry less if one was taken, and none otherwise.
  cases effect with
  | idle next state phase =>
    rcases phase with rfl | rfl
    · obtain rfl := Option.some.inj (hp.symm.trans hp')
      rw [next]
      exact ⟨going, rfl⟩
    · exact going.elim
  | refused _ _ _ phase => exact (phase ▸ going).elim
  | lingers next _ _ _ _ _ left =>
    rw [next]
    exact ⟨Phase.going_of_next? next, left⟩
  | bypassed next _ _ _ _ _ left =>
    rw [next]
    exact ⟨Phase.going_of_next? next, left⟩
  | failed _ _ _ _ _ _ phase => exact (phase ▸ going).elim
  | completed holds _ _ _ _ _ phase =>
    rcases phase with ⟨_, _, _, left⟩ | ⟨phase, _⟩
    · exact ⟨holds.going, left⟩
    · exact (phase ▸ going).elim

/-- The entries that were taken and those that may still be taken are as many after a step as before
it. -/
theorem Effect.total {e : Engine} {x : Execution} {φ φ' : Phase} {p p' : Pass}
    (effect : Effect e x φ φ' p p') (hp : φ.pass? = some p) (hp' : φ'.pass? = some p')
    (going : φ'.Going) (h : List Entry) :
    p'.left + (h ++ φ.next?.toList).length = p.left + h.length := by
  have left := (effect.left hp hp' going).2
  rw [List.length_append]
  omega

end Engine

end Conveyor
