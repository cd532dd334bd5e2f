/-
The loop over the stack does what the recursion does.

The two are linked by what a step leaves: the pass after the entry, and the entries it has made
ready on top of the rest (`Phase.ahead`). The recursion on those is the rest of the recursion before
the step, since visiting one list of entries after another is visiting them in one go. So a run
stays `Abreast` of the recursion until it ends, whatever ends it.

That entries further down do not matter in the meantime is `Aloof.step_below`: a step of a run with
more at the bottom of its stack is the step of the run without it, with the same at the bottom. It
takes hooks that leave the stack alone and do not look at it.
-/
import Conveyor.NodeType.Flow
import Conveyor.Proofs.Engine.Pause
import Conveyor.Proofs.Engine.Visit

set_option autoImplicit false

namespace Conveyor

/-! ## Hooks that leave the stack alone -/

/-- A hook that neither sees nor changes the stack. -/
structure Hook.Aloof (k : Hook) : Prop where
  nodeStarts : ∀ node s stack,
    (k.nodeStarts node (s.withStack stack)).2 = (k.nodeStarts node s).2.withStack stack
  nodeEnds : ∀ node t s stack,
    (k.nodeEnds node t (s.withStack stack)).2 = (k.nodeEnds node t s).2.withStack stack

theorem Hook.Silent.aloof {k : Hook} (silent : k.Silent) : k.Aloof where
  nodeStarts node s stack := by rw [silent.nodeStarts, silent.nodeStarts]
  nodeEnds node t s stack := by rw [silent.nodeEnds, silent.nodeEnds]

/-- Hooks that leave the stack alone do the same above any stack. -/
theorem callHooks_withStack (stage : Stage) {actions : List (HookAction RunState)}
    (aloof : ∀ f ∈ actions, ∀ s stack, (f (s.withStack stack)).2 = (f s).2.withStack stack)
    (n : Nat) (s : RunState) (stack : List Entry) : callHooks stage n actions (s.withStack stack)
      = ((callHooks stage n actions s).1, (callHooks stage n actions s).2.withStack stack) := by
  induction actions generalizing n s with
  | nil => rfl
  | cons f fs ih =>
    have first := aloof f List.mem_cons_self s stack
    simp only [callHooks, first, ih fun g hg => aloof g (List.mem_cons_of_mem f hg)]

namespace Graph

/-- Which nodes a completion makes ready is told by the outputs that are kept. -/
theorem readyNodes_congr (g : Graph) (a a' : Agenda) (same : a.outputs = a'.outputs)
    (source : String) (seen : List String) (ds : List Delivery) :
    g.readyNodes a source seen ds = g.readyNodes a' source seen ds := by
  have join : a.join? = a'.join? := by
    funext node links
    simp only [Agenda.join?, Agenda.outputOf, same]
  induction ds generalizing seen with
  | nil => rfl
  | cons d ds ih => simp only [readyNodes, join, ih]

theorem pushes_congr (g : Graph) (a a' : Agenda) (same : a.outputs = a'.outputs) (node : String)
    (output : List Items) : g.pushes a node output = g.pushes a' node output := by
  rw [pushes, pushes]
  exact congrArg g.sortEntries (readyNodes_congr g _ _ (by rw [same]) _ _ _)

/-- A completion leaves what is on the stack under what it pushes. -/
theorem complete_withStack (g : Graph) (a : Agenda) (stack : List Entry) (node : String)
    (output : List Items) : g.complete { a with stack := stack } node output
      = { g.complete a node output with stack := g.pushes a node output ++ stack } := by
  have ready :=
    readyNodes_congr g { a with stack := stack, outputs := a.outputs.insert node output }
    { a with outputs := a.outputs.insert node output } rfl node [] (g.deliveriesOf node output)
  simp only [deliveriesOf] at ready
  simp only [complete, deliver, pushes, deliveriesOf, ready]

end Graph

namespace Engine

/-- All hooks of an engine leave the stack alone. -/
def Aloof (e : Engine) : Prop := ∀ k ∈ e.hooks, k.Aloof

theorem Silent.aloof {e : Engine} (silent : e.Silent) : e.Aloof := fun k hk => (silent k hk).aloof

variable {e : Engine} {x : Execution} {p q : Pass} {en : Entry} {ens : List Entry}

/-! ## What an entry does above any stack -/

section Frame

variable (stack : List Entry) (left : Nat) (canceled : Bool)

theorem callHooks_frame (stage : Stage) {actions : List (HookAction RunState)}
    (aloof : ∀ f ∈ actions, ∀ s stack, (f (s.withStack stack)).2 = (f s).2.withStack stack)
    (p : Pass) : (p.frame stack left canceled).callHooks stage actions
      = (p.callHooks stage actions).frame stack left canceled := by
  have same := callHooks_withStack stage aloof 0 p.state stack
  simp only [Pass.callHooks, Pass.frame, same]

theorem Aloof.nodeStarts_frame (aloof : e.Aloof) (p : Pass) (name : String) :
    (p.frame stack left canceled).callHooks (.nodeStarts name)
    (e.hooks.map fun h => h.nodeStarts name)
      = (p.callHooks (.nodeStarts name) (e.hooks.map fun h => h.nodeStarts name)).frame stack left
          canceled := by
  refine callHooks_frame stack left canceled _ (fun f hf s stack => ?_) p
  obtain ⟨k, hk, rfl⟩ := List.mem_map.1 hf
  exact (aloof k hk).nodeStarts name s stack

theorem Aloof.record_frame (aloof : e.Aloof) (p : Pass) (n : Node) (t : Task) :
    e.record (p.frame stack left canceled) n t = (e.record p n t).frame stack left canceled := by
  refine callHooks_frame stack left canceled _ (fun f hf s stack => ?_)
    { p with state := p.state.recorded n.name t, nextIndex := p.nextIndex + 1 }
  obtain ⟨k, hk, rfl⟩ := List.mem_map.1 hf
  exact (aloof k hk).nodeEnds n.name t s stack

theorem keep_frame (x : Execution) (p : Pass) (node : String) (output : List Items) :
    keep x (p.frame stack left canceled) node output
      = ((keep x p node output).1.frame stack left canceled, (keep x p node output).2) := by
  have kept := x.graph.complete_withStack p.state.agenda stack node output
  have made :=
    x.graph.pushes_congr { p.state.agenda with stack := stack } p.state.agenda rfl node output
  simp only [keep, Pass.frame, Pass.withAgenda, RunState.withStack, kept, made]

theorem Aloof.work_frame (aloof : e.Aloof) (x : Execution) (p : Pass) (n : Node) (en : Entry)
    (r : NodeResult) : e.work x (p.frame stack left canceled) n en r
      = ((e.work x p n en r).1.frame stack left canceled, (e.work x p n en r).2) := by
  have task : ∀ settled, e.taskOf (p.frame stack left canceled) en settled
      = e.taskOf p en settled :=
    fun _ => rfl
  simp only [work, task, aloof.record_frame stack left canceled]
  split
  · rfl
  · exact keep_frame stack left canceled x _ n.name _

end Frame

/-- Recording a task leaves the stack alone. -/
theorem Aloof.record_stack (aloof : e.Aloof) (p : Pass) (n : Node) (t : Task) :
    (e.record p n t).state.agenda.stack = p.state.agenda.stack := by
  have same := aloof.record_frame p.state.agenda.stack p.left p.canceled p n t
  rw [Pass.frame_self] at same
  rw [same]
  rfl

theorem Aloof.nodeStarts_stack (aloof : e.Aloof) (p : Pass) (name : String) :
    (p.callHooks (.nodeStarts name) (e.hooks.map fun h => h.nodeStarts name)).state.agenda.stack
      = p.state.agenda.stack := by
  have same := aloof.nodeStarts_frame p.state.agenda.stack p.left p.canceled p name
  rw [Pass.frame_self] at same
  rw [same]
  rfl

/-! ## The loop keeps up with the recursion -/

/-- What is kept and made ready by a completion, with the entries put on the stack. -/
theorem push_keep (x : Execution) (p : Pass) (node : String) (output : List Items) :
    (keep x p node output).1.push (keep x p node output).2
      = p.withAgenda (x.graph.complete p.state.agenda node output) := rfl

/-- After an execution the loop stops, or the entries that were made ready are on top of the
stack. -/
theorem conclude_cases (e : Engine) (x : Execution) (p : Pass) (n : Node) (en : Entry)
    (r : NodeResult) : (∃ q, e.conclude x p n en r = .stopped q false) ∨
      e.conclude x p n en r = .ready ((e.work x p n en r).1.push (e.work x p n en r).2) := by
  set t := e.taskOf p en (r.settle n.onError (e.registry.outputs n.type)) with ht
  cases status : t.status with
  | error =>
    left
    simp only [conclude, ← ht, status]
    exact ⟨_, rfl⟩
  | success =>
    simp only [conclude, work, ← ht, status, push_keep, pause]
    split
    · split
      · exact .inl ⟨_, rfl⟩
      · exact .inr rfl
    · exact .inr rfl

end Engine

namespace Phase

/-- What is ahead of a run that goes on: the pass without what only the loop needs, and the entries
to be visited from there. A node that lingers is done with as if the cancellation had come. -/
def ahead (e : Engine) (x : Execution) : Phase → Option (Pass × List Entry)
  | ready p => some (p.bare, p.state.agenda.stack)
  | lingering p n en r =>
    let worked := e.work x p.bare n en r
    some (worked.1, worked.2 ++ p.state.agenda.stack)
  | stopped .. | broken _ => none

@[simp] theorem ahead_cancel (e : Engine) (x : Execution) (φ : Phase) :
    φ.cancel.ahead e x = φ.ahead e x := by
  cases φ <;> rfl

end Phase

namespace Engine

variable {e : Engine} {x : Execution} {p q : Pass} {en : Entry} {ens : List Entry} {φ : Phase}

/-- What an execution that goes on leaves ahead is what its result leaves and makes ready. -/
theorem Aloof.ahead_conclude (aloof : e.Aloof) {n : Node} {r : NodeResult}
    (after : (e.conclude x p n en r).ahead e x = some (q, ens)) :
    q = (e.work x p.bare n en r).1 ∧ ens = (e.work x p.bare n en r).2 ++ p.state.agenda.stack := by
  have bare : e.work x p.bare n en r = ((e.work x p n en r).1.bare, (e.work x p n en r).2) :=
    aloof.work_frame [] 0 false x p n en r
  have stack : (e.work x p n en r).1.state.agenda.stack = p.state.agenda.stack :=
    congrArg (fun w : Pass × List Entry => w.1.state.agenda.stack)
      (aloof.work_frame p.state.agenda.stack p.left p.canceled x p.bare n en r)
  rcases conclude_cases e x p n en r with ⟨q', stops⟩ | goes
  · rw [stops] at after
    simp only [Phase.ahead, reduceCtorEq] at after
  · rw [goes] at after
    obtain ⟨rfl, rfl⟩ := Prod.mk.inj (Option.some.inj after)
    rw [bare, ← stack]
    exact ⟨rfl, rfl⟩

theorem Aloof.ahead_execute (aloof : e.Aloof) {n : Node}
    (after : (e.execute x p n en).ahead e x = some (q, ens)) (node : x.graph.node? en.node = some n)
    (enabled : n.disabled = false) :
    q = (e.handle x p.bare en).1 ∧ ens = (e.handle x p.bare en).2 ++ p.state.agenda.stack := by
  have bare := aloof.nodeStarts_frame [] 0 false p n.name
  have stack := aloof.nodeStarts_stack p n.name
  -- The recursion tells the hooks with an empty stack, the loop with its own one; the nodes do not
  -- see the difference.
  simp only [execute] at after
  simp only [handle, node, enabled, Bool.false_eq_true, if_false, Pass.bare, bare]
  set p₁ := p.callHooks (.nodeStarts n.name) (e.hooks.map fun h => h.nodeStarts n.name)
  have attempt : e.attempt x (p₁.frame [] 0 false).state n en = e.attempt x p₁.state n en := rfl
  rw [attempt, ← stack]
  cases attempt : e.attempt x p₁.state n en with
  | returns r =>
    rw [attempt] at after
    exact aloof.ahead_conclude after
  | cancelsRun r =>
    rw [attempt] at after
    exact aloof.ahead_conclude (p := { p₁ with canceled := true }) after
  | lingers r =>
    rw [attempt] at after
    obtain ⟨rfl, rfl⟩ := Prod.mk.inj (Option.some.inj after)
    exact ⟨rfl, rfl⟩
  | breaks m =>
    rw [attempt] at after
    simp only [Phase.ahead, reduceCtorEq] at after

theorem Aloof.ahead_take (aloof : e.Aloof) (after : (e.take x p en).ahead e x = some (q, ens)) :
    q = (e.handle x p.bare en).1 ∧ ens = (e.handle x p.bare en).2 ++ p.state.agenda.stack := by
  cases allowed : p.left with
  | zero => simp only [take, allowed, Phase.ahead, reduceCtorEq] at after
  | succ left =>
    cases node : x.graph.node? en.node with
    | none =>
      rw [take_unknown allowed node] at after
      simp only [Phase.ahead, reduceCtorEq] at after
    | some n =>
      cases status : n.disabled with
      | true =>
        rw [take_bypass allowed node status, bypass, ← push_keep] at after
        obtain ⟨rfl, rfl⟩ := Prod.mk.inj (Option.some.inj after)
        have bare := keep_frame [] 0 false x p n.name [en.inputs.headD []]
        simp only [handle, node, status, if_true, Pass.bare, bare]
        exact ⟨rfl, rfl⟩
      | false =>
        rw [take_execute allowed node status] at after
        exact aloof.ahead_execute (p := { p with left := left }) after node status

/-- **A step of the loop visits one entry.** What is ahead after it is what the entry has left and
made ready, on top of the entries beside it; a step that takes no entry leaves what is ahead as it
was. -/
theorem Aloof.ahead_step (aloof : e.Aloof) {ens' : List Entry} {q' : Pass}
    (before : φ.ahead e x = some (q, ens)) (after : (e.step x φ).ahead e x = some (q', ens')) :
    (φ.next? = none ∧ q' = q ∧ ens' = ens) ∨ ∃ en rest, φ.next? = some en ∧ ens = en :: rest ∧
      q' = (e.handle x q en).1 ∧ ens' = (e.handle x q en).2 ++ rest := by
  -- A run that has come to its end has nothing ahead; so it is ready, with an entry on its stack,
  -- or a node lingers.
  cases φ with
  | stopped => simp only [Phase.ahead, reduceCtorEq] at before
  | broken => simp only [Phase.ahead, reduceCtorEq] at before
  | lingering p n en r =>
    obtain ⟨rfl, rfl⟩ := Prod.mk.inj (Option.some.inj before)
    refine .inl ⟨rfl, ?_⟩
    simp only [step] at after
    split at after
    · exact aloof.ahead_conclude after
    · obtain ⟨rfl, rfl⟩ := Prod.mk.inj (Option.some.inj after)
      exact ⟨rfl, rfl⟩
  | ready p =>
    obtain ⟨rfl, rfl⟩ := Prod.mk.inj (Option.some.inj before)
    cases going : p.canceled with
    | true =>
      simp only [step, going, if_true, Phase.ahead, reduceCtorEq] at after
    | false =>
      cases top : p.state.agenda.stack with
      | nil =>
        rw [step_done going top] at after
        simp only [Phase.ahead, reduceCtorEq] at after
      | cons en rest =>
        refine .inr ⟨en, rest, Phase.next?_ready going top, rfl, ?_⟩
        rw [step_take going top] at after
        exact aloof.ahead_take after

/-- A run and the recursion on the entries it began with. What the run has taken is how the
recursion begins, and the rest of the recursion is the recursion on what is ahead of the run. -/
structure Abreast (e : Engine) (x : Execution) (p : Pass) (ens h : List Entry) (φ : Phase) :
    Prop where
  heads : e.Heads x p ens h
  begins : ∀ {q ens' path}, φ.ahead e x = some (q, ens') → e.Heads x q ens' path →
    e.Heads x p ens (h ++ path)
  visits : ∀ {q ens' path q'}, φ.ahead e x = some (q, ens') →
    (e.Visits x p ens path q' ↔ ∃ rest, path = h ++ rest ∧ e.Visits x q ens' rest q')

/-- A run begins abreast of the recursion. -/
theorem Abreast.start (before : φ.ahead e x = some (p, ens)) : Abreast e x p ens [] φ where
  heads := heads_nil e x p ens
  begins after heads := by
    obtain ⟨rfl, rfl⟩ := Prod.mk.inj (Option.some.inj (before.symm.trans after))
    exact heads
  visits after := by
    obtain ⟨rfl, rfl⟩ := Prod.mk.inj (Option.some.inj (before.symm.trans after))
    simp only [List.nil_append, exists_eq_left']

/-- An entry is taken only by a run that has it ahead of it. -/
theorem ahead_of_next? (next : φ.next? = some en) :
    ∃ q rest, φ.ahead e x = some (q, en :: rest) := by
  obtain ⟨p, rfl⟩ := Phase.ready_of_next? next
  simp only [Phase.next?] at next
  split at next
  · simp only [reduceCtorEq] at next
  · obtain ⟨rest, top⟩ := List.head?_eq_some_iff.1 next
    exact ⟨p.bare, rest, by rw [Phase.ahead, top]⟩

theorem Abreast.step (aloof : e.Aloof) {h : List Entry} (abreast : Abreast e x p ens h φ) :
    Abreast e x p ens (h ++ φ.next?.toList) (e.step x φ) := by
  cases before : φ.ahead e x with
  -- A run that has stopped or broken down takes no more steps.
  | none =>
    have rests : φ.next? = none ∧ e.step x φ = φ := by
      cases φ with
      | ready => simp only [Phase.ahead, reduceCtorEq] at before
      | lingering => simp only [Phase.ahead, reduceCtorEq] at before
      | stopped => exact ⟨rfl, rfl⟩
      | broken => exact ⟨rfl, rfl⟩
    rw [rests.1, rests.2, Option.toList_none, List.append_nil]
    exact abreast
  | some ahead =>
    obtain ⟨q, ens'⟩ := ahead
    refine ⟨?_, fun after begun => ?_, fun after => ?_⟩
    · cases next : φ.next? with
      | none =>
        rw [Option.toList_none, List.append_nil]
        exact abreast.heads
      | some en =>
        -- The entry counts as visited even if it is the last one the run takes.
        obtain ⟨_, _, begins⟩ := ahead_of_next? (e := e) (x := x) next
        exact abreast.begins begins (heads_cons.2 (.inr ⟨[], rfl, .inl (heads_nil e x _ _)⟩))
    · rcases aloof.ahead_step before after with ⟨none, rfl, rfl⟩ | ⟨en, rest, next, rfl, rfl, rfl⟩
      · rw [none, Option.toList_none, List.append_nil]
        exact abreast.begins before begun
      · rw [next, Option.toList_some, List.append_assoc]
        exact abreast.begins before begun.handle
    · rcases aloof.ahead_step before after with ⟨none, rfl, rfl⟩ | ⟨en, rest, next, rfl, rfl, rfl⟩
      · rw [none, Option.toList_none, List.append_nil]
        exact abreast.visits before
      · rw [abreast.visits before, next, Option.toList_some]
        constructor
        · rintro ⟨_, rfl, visits⟩
          obtain ⟨rest', rfl, handled⟩ := visits_handle.1 visits
          exact ⟨rest', (List.append_assoc h [en] rest').symm, handled⟩
        · rintro ⟨rest', rfl, visits⟩
          exact ⟨_, List.append_assoc h [en] rest', visits_handle.2 ⟨rest', rfl, visits⟩⟩

theorem Abreast.cancel {h : List Entry} (abreast : Abreast e x p ens h φ) :
    Abreast e x p ens h φ.cancel where
  heads := abreast.heads
  begins after := abreast.begins (φ.ahead_cancel e x ▸ after)
  visits after := abreast.visits (φ.ahead_cancel e x ▸ after)

/-- A run stays abreast of the recursion on the entries it began with. -/
theorem Leads.abreast (aloof : e.Aloof) {φ₀ : Phase} (before : φ₀.ahead e x = some (p, ens))
    {h : List Entry} (run : Leads e x φ₀ h φ) : Abreast e x p ens h φ := by
  induction run with
  | refl => exact .start before
  | step _ ih => exact ih.step aloof
  | cancel _ ih => exact ih.cancel

end Engine

/-! ## What lies below is left alone -/

namespace Phase

/-- The phase with further entries at the bottom of the stack. -/
def below (rest : List Entry) : Phase → Phase
  | ready p => ready (p.below rest)
  | lingering p n en r => lingering (p.below rest) n en r
  | stopped p c => stopped (p.below rest) c
  | broken m => broken m

/-- Whether the next step does not look below the stack: it takes an entry, or does not look at the
stack. -/
def busy : Phase → Bool
  | ready p => p.canceled || !p.state.agenda.stack.isEmpty
  | lingering .. | stopped .. | broken _ => true

end Phase

namespace Engine

variable {e : Engine} {x : Execution} {p : Pass} {en : Entry} {n : Node} {φ : Phase}
  {rest : List Entry}

theorem complete_below (x : Execution) (p : Pass) (node : String) (output : List Items)
    (rest : List Entry) :
    (p.below rest).withAgenda (x.graph.complete (p.below rest).state.agenda node output)
      = (p.withAgenda (x.graph.complete p.state.agenda node output)).below rest := by
  have kept := x.graph.complete_withStack p.state.agenda (p.state.agenda.stack ++ rest) node output
  rw [← List.append_assoc] at kept
  simp only [Pass.below, Pass.frame, Pass.withAgenda, RunState.withStack, kept]
  rfl

theorem Aloof.nodeStarts_below (aloof : e.Aloof) (p : Pass) (name : String) (rest : List Entry) :
    (p.below rest).callHooks (.nodeStarts name) (e.hooks.map fun h => h.nodeStarts name)
      = (p.callHooks (.nodeStarts name) (e.hooks.map fun h => h.nodeStarts name)).below rest := by
  rw [Pass.below, aloof.nodeStarts_frame, Pass.below, aloof.nodeStarts_stack]
  rfl

theorem Aloof.record_below (aloof : e.Aloof) (p : Pass) (n : Node) (t : Task) (rest : List Entry) :
    e.record (p.below rest) n t = (e.record p n t).below rest := by
  rw [Pass.below, aloof.record_frame, Pass.below, aloof.record_stack]
  rfl

theorem Aloof.conclude_below (aloof : e.Aloof) (x : Execution) (p : Pass) (n : Node) (en : Entry)
    (r : NodeResult) (rest : List Entry) :
    e.conclude x (p.below rest) n en r = (e.conclude x p n en r).below rest := by
  have task : ∀ settled, e.taskOf (p.below rest) en settled = e.taskOf p en settled := fun _ => rfl
  simp only [conclude, task, aloof.record_below, complete_below]
  split
  · rfl
  · simp only [pause]
    split
    -- Whether the run pauses is a matter of the clock, not of the stack.
    · split <;> rfl
    · rfl

theorem Aloof.execute_below (aloof : e.Aloof) (x : Execution) (p : Pass) (n : Node) (en : Entry)
    (rest : List Entry) : e.execute x (p.below rest) n en = (e.execute x p n en).below rest := by
  simp only [execute, aloof.nodeStarts_below]
  set q := p.callHooks (.nodeStarts n.name) (e.hooks.map fun h => h.nodeStarts n.name)
  have attempt : e.attempt x (q.below rest).state n en = e.attempt x q.state n en := rfl
  rw [attempt]
  cases e.attempt x q.state n en with
  | returns r => exact aloof.conclude_below x q n en r rest
  | cancelsRun r => exact aloof.conclude_below x { q with canceled := true } n en r rest
  | lingers r => rfl
  | breaks m => rfl

theorem Aloof.take_below (aloof : e.Aloof) (x : Execution) (p : Pass) (en : Entry)
    (rest : List Entry) :
    e.take x (p.below rest) en = (e.take x p en).below rest := by
  cases allowed : p.left with
  | zero => simp only [take, show (p.below rest).left = 0 from allowed, allowed]; rfl
  | succ left =>
    have allowed' : (p.below rest).left = left + 1 := allowed
    cases node : x.graph.node? en.node with
    | none =>
      rw [take_unknown allowed node, take_unknown allowed' node]
      rfl
    | some n =>
      cases status : n.disabled with
      | true =>
        rw [take_bypass allowed node status, take_bypass allowed' node status]
        exact congrArg Phase.ready (complete_below x { p with left := left } n.name _ rest)
      | false =>
        rw [take_execute allowed node status, take_execute allowed' node status]
        exact aloof.execute_below x { p with left := left } n en rest

/-- A step of a run that is busy is the same with more at the bottom of the stack, which it leaves
there. -/
theorem Aloof.step_below (aloof : e.Aloof) (busy : φ.busy = true) (rest : List Entry) :
    e.step x (φ.below rest) = (e.step x φ).below rest ∧ (φ.below rest).next? = φ.next? := by
  cases φ with
  | stopped => exact ⟨rfl, rfl⟩
  | broken => exact ⟨rfl, rfl⟩
  | lingering p n en r =>
    refine ⟨?_, rfl⟩
    cases canceled : p.canceled with
    | true =>
      simp only [Phase.below, step, canceled, show (p.below rest).canceled = true from canceled,
        if_true]
      exact aloof.conclude_below x p n en r rest
    | false =>
      simp only [Phase.below, step, canceled, show (p.below rest).canceled = false from canceled,
        Bool.false_eq_true, if_false]
  | ready p =>
    cases going : p.canceled with
    | true =>
      have going' : (p.below rest).canceled = true := going
      simp only [Phase.below, step, Phase.next?, going, going', if_true, and_self]
    | false =>
      have going' : (p.below rest).canceled = false := going
      cases top : p.state.agenda.stack with
      -- Without anything on top the step would end one of the runs and take an entry from below in
      -- the other.
      | nil => simp only [Phase.busy, going, top, List.isEmpty_nil, Bool.not_true, Bool.or_self,
          Bool.false_eq_true] at busy
      | cons en ens =>
        have top' : (p.below rest).state.agenda.stack = en :: (ens ++ rest) := by
          rw [← List.cons_append, ← top]
          rfl
        refine ⟨?_, (Phase.next?_ready going' top').trans (Phase.next?_ready going top).symm⟩
        rw [Phase.below, step_take going' top', step_take going top]
        exact aloof.take_below x (p.withAgenda (p.state.withStack ens).agenda) en rest

/-- A run takes the same entries and does the same with more at the bottom of the stack, until it
has worked off all that lies above. -/
theorem Aloof.steps_below (aloof : e.Aloof) {k : Nat} (busy : ∀ j < k, (e.steps x j φ).busy = true)
    (rest : List Entry) : e.steps x k (φ.below rest) = (e.steps x k φ).below rest ∧
      e.taken x k (φ.below rest) = e.taken x k φ := by
  induction k generalizing φ with
  | zero => exact ⟨rfl, rfl⟩
  | succ k ih =>
    obtain ⟨same, next⟩ := aloof.step_below (x := x) (φ := φ) (busy 0 (Nat.succ_pos k)) rest
    obtain ⟨steps, taken⟩ := ih (φ := e.step x φ) fun j hj => busy (j + 1) (Nat.succ_lt_succ hj)
    rw [← same] at steps taken
    rw [Engine.steps, Engine.steps, Engine.taken, Engine.taken, next, taken]
    exact ⟨steps, rfl⟩

/-- **The loop is the recursion.** From any pass, with any stack:

whatever a run has taken when it stops, pauses, is canceled or has used up its allowance, the
recursion on the stack begins with it;

as long as the run goes on, the rest of the recursion is the recursion on the stack the run has
then, from the state it has then, and once that stack is empty the recursion has come to its end as
well, with the same entries and the same state;

and entries that lie below do not matter: until all that lies above them has been worked off, the
run takes the same entries, does the same, and leaves them where they are. -/
theorem loop_is_recursion (aloof : e.Aloof) (x : Execution) (p : Pass) :
    (∀ h φ, Leads e x (.ready p) h φ → e.Heads x p.bare p.state.agenda.stack h) ∧
    (∀ h P, Leads e x (.ready p) h (.ready P) →
      (∀ path q, e.Visits x p.bare p.state.agenda.stack path q ↔
        ∃ rest, path = h ++ rest ∧ e.Visits x P.bare P.state.agenda.stack rest q) ∧
      (P.state.agenda.stack = [] → P.bare.state = P.state ∧
        ∀ path q, e.Visits x p.bare p.state.agenda.stack path q ↔ path = h ∧ q = P.bare)) ∧
    ∀ rest k, (∀ j < k, (e.steps x j (.ready p)).busy = true) →
      e.steps x k (.ready (p.below rest)) = (e.steps x k (.ready p)).below rest ∧
        e.taken x k (.ready (p.below rest)) = e.taken x k (.ready p) := by
  -- All three parts compare the loop with the recursion, and that is one induction along the run.
  have abreast : ∀ {h φ}, Leads e x (.ready p) h φ → Abreast e x p.bare p.state.agenda.stack h φ :=
    fun run => run.abreast aloof rfl
  refine ⟨fun h φ run => (abreast run).heads, fun h P run => ?_, fun rest k busy =>
    aloof.steps_below busy rest⟩
  have visits : ∀ path q, e.Visits x p.bare p.state.agenda.stack path q ↔
      ∃ rest, path = h ++ rest ∧ e.Visits x P.bare P.state.agenda.stack rest q :=
    fun _ _ => (abreast run).visits rfl
  refine ⟨visits, fun done => ⟨?_, fun path q => ?_⟩⟩
  -- With nothing left on the stack, the frame of the pass is the pass itself.
  · simp only [Pass.bare, Pass.frame, RunState.withStack, ← done]
  · rw [visits, done]
    simp only [visits_nil]
    constructor
    · rintro ⟨_, rfl, rfl, rfl⟩
      exact ⟨List.append_nil h, rfl⟩
    · rintro ⟨rfl, rfl⟩
      exact ⟨[], (List.append_nil _).symm, rfl, rfl⟩

end Engine

namespace Detour

/-- The pass that the run on the detour begins with. -/
def pass : Pass :=
  { state := state, nextIndex := 0, left := 3, canceled := false, log := [] }

end Detour

/-- On the detour the recursion from Start visits A before J and ends where the run ends, and the
run is the same with entries waiting below. -/
theorem detour_visited : (Detour.engine NodeType.noOp).Aloof ∧
    (∃ h q, (Detour.engine NodeType.noOp).Visits Detour.execution Detour.pass.bare
        Detour.pass.state.agenda.stack h q ∧ h.map Entry.node = ["Start", "A", "J"] ∧
      q.state.tasks.names = ["Start", "J"]) ∧
    ∀ rest, ((Detour.engine NodeType.noOp).taken Detour.execution 3
      (.ready (Detour.pass.below rest))).map Entry.node = ["Start", "A", "J"] := by
  have aloof : (Detour.engine NodeType.noOp).Aloof := fun _ hook => absurd hook List.not_mem_nil
  have run :=
    Engine.leads_steps (Detour.engine NodeType.noOp) Detour.execution 3 (.ready Detour.pass)
  obtain ⟨_, loop, below⟩ := Engine.loop_is_recursion aloof Detour.execution Detour.pass
  refine ⟨aloof, ⟨_, _, (((loop _ _ run).2 rfl).2 _ _).2 ⟨rfl, rfl⟩, by decide, by decide⟩,
    fun rest => ?_⟩
  rw [(below rest 3 (by decide)).2]
  decide

end Conveyor
