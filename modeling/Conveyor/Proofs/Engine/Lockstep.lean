/-
Two runs in lockstep.

To say that two runs do the same, one says what their passes have in common, and shows that this is
kept by all that a step can do to a pass: taking an entry, recording a task, delivering an output,
ending with an error. That is `Lockstep`, and the rest does not depend on what the two passes have
in common. What a step does in one run it does in the other one as well (`Lockstep.step`), so the
two take the same entries and come to the same end (`Lockstep.taken`, `Lockstep.advance`).

The nodes of the two runs may be different. `Lockstep` is asked for the nodes that both have in
common only; for entries of any other node it is left to show that taking them keeps the two
together.
-/
import Conveyor.Proofs.Engine.Dataflow

set_option autoImplicit false

namespace Conveyor

/-- Two phases at the same point, with passes that a relation holds between; a node that lingers is
one of those the two runs have in common. -/
inductive Phase.Paired (R : Pass → Pass → Prop) (shared : Node → Prop) : Phase → Phase → Prop
  | ready {p q : Pass} (pair : R p q) : Paired R shared (.ready p) (.ready q)
  | lingering {p q : Pass} {n : Node} {en : Entry} {r : NodeResult} (pair : R p q)
    (common : shared n) :
      Paired R shared (.lingering p n en r) (.lingering q n en r)
  | stopped {p q : Pass} {c : Bool} (pair : R p q) : Paired R shared (.stopped p c) (.stopped q c)
  | broken {m : String} : Paired R shared (.broken m) (.broken m)

/-- What hooks keep of a relation, calling them all keeps, and the calls are the same. -/
theorem callHooks_pair {σ : Type} {R : σ → σ → Prop} (stage : Stage) {hooks : List Hook}
    {f g : Hook → HookAction σ} (each : ∀ k ∈ hooks, ∀ {s t}, R s t → R (f k s).2 (g k t).2)
    (n : Nat) {s t : σ} (pair : R s t) :
    (callHooks stage n (hooks.map f) s).1 = (callHooks stage n (hooks.map g) t).1 ∧
      R (callHooks stage n (hooks.map f) s).2 (callHooks stage n (hooks.map g) t).2 := by
  induction hooks generalizing n s t with
  | nil => exact ⟨rfl, pair⟩
  | cons k hooks ih =>
    have first := each k List.mem_cons_self pair
    obtain ⟨log, last⟩ := ih (fun k hk => each k (List.mem_cons_of_mem _ hk)) (n + 1) first
    simp only [List.map_cons, callHooks, log]
    exact ⟨trivial, last⟩

namespace Engine

/-- The entries that a run takes that is asked for; it may have been canceled beforehand. -/
def takes (e : Engine) (w : Workflow) (r : Request) (canceled : Bool) : List Entry :=
  match e.prepare w r with
  | .ok (x, s) => e.history x (e.begin x s canceled)
  | .error _ => []

/-- Two answers: the same error, or two results that a relation holds between. -/
inductive Answers {α : Type} (R : α → α → Prop) : Except EngineError α → Except EngineError α → Prop
  | error {cause : EngineError} : Answers R (.error cause) (.error cause)
  | ok {a b : α} (same : R a b) : Answers R (.ok a) (.ok b)

/-- What is prepared alike and goes on alike ends alike, and takes the same entries. -/
theorem Answers.perform {e : Engine} {w w' : Workflow} {r r' : Request} {canceled : Bool}
    {S : Ending → Ending → Prop} (prepared : Answers (fun a b =>
      e.history a.1 (e.begin a.1 a.2 canceled) = e.history b.1 (e.begin b.1 b.2 canceled) ∧
      S (e.ending a.1 (e.begin a.1 a.2 canceled)) (e.ending b.1 (e.begin b.1 b.2 canceled)))
      (e.prepare w r) (e.prepare w' r')) :
    e.takes w r canceled = e.takes w' r' canceled ∧
      Answers S (e.perform w r canceled) (e.perform w' r' canceled) := by
  simp only [takes, Engine.perform]
  generalize e.prepare w r = a at prepared ⊢
  generalize e.prepare w' r' = b at prepared ⊢
  cases prepared with
  | error => exact ⟨rfl, .error⟩
  | ok same => exact ⟨same.1, .ok same.2⟩

/-- A relation between the passes of two executions that whatever a step does to both of them
keeps. -/
structure Lockstep (e : Engine) (x y : Execution) (R : Pass → Pass → Prop) (shared : Node → Prop) :
    Prop where
  canceled : ∀ {p q}, R p q → p.canceled = q.canceled
  left : ∀ {p q}, R p q → p.left = q.left
  stack : ∀ {p q}, R p q → p.state.agenda.stack = q.state.agenda.stack
  cancel : ∀ {p q}, R p q → R { p with canceled := true } { q with canceled := true }
  spend : ∀ {p q}, R p q → ∀ left, R { p with left := left } { q with left := left }
  pop : ∀ {p q}, R p q → ∀ rest,
    R (p.withAgenda (p.state.withStack rest).agenda) (q.withAgenda (q.state.withStack rest).agenda)
  fail : ∀ {p q}, R p q → ∀ message node, R (p.failWith message node) (q.failWith message node)
  pause : ∀ {p q}, R p q → ∀ till, R { p with state := { p.state with waitTill := some till } }
    { q with state := { q.state with waitTill := some till } }
  attempt : ∀ {p q}, R p q → ∀ n, shared n →
    ∀ en, e.attempt x p.state n en = e.attempt y q.state n en
  nodeStarts : ∀ {p q}, R p q → ∀ n, shared n →
    R (p.callHooks (.nodeStarts n.name) (e.hooks.map fun h => h.nodeStarts n.name))
      (q.callHooks (.nodeStarts n.name) (e.hooks.map fun h => h.nodeStarts n.name))
  record : ∀ {p q}, R p q → ∀ n, shared n → ∀ en settled,
    R (e.record p n (e.taskOf p en settled)) (e.record q n (e.taskOf q en settled))
  complete : ∀ {p q}, R p q → ∀ n, shared n → ∀ output,
    R (p.withAgenda (x.graph.complete p.state.agenda n.name output))
      (q.withAgenda (y.graph.complete q.state.agenda n.name output))

namespace Lockstep

variable {e : Engine} {x y : Execution} {R : Pass → Pass → Prop} {shared : Node → Prop} {p q : Pass}
  {φ ψ : Phase} {n : Node} {en : Entry} (lock : e.Lockstep x y R shared)
include lock

theorem paused (pair : R p q) (till : Option Time.Instant) :
    Phase.Paired R shared (e.pause p till) (e.pause q till) := by
  cases till with
  | none => exact .ready pair
  | some t =>
    simp only [Engine.pause]
    split
    · exact .stopped (lock.pause pair t)
    · exact .ready pair

theorem conclude (pair : R p q) (common : shared n) (en : Entry) (r : NodeResult) :
    Phase.Paired R shared (e.conclude x p n en r) (e.conclude y q n en r) := by
  have recorded := lock.record pair n common en (r.settle n.onError (e.registry.outputs n.type))
  simp only [Engine.conclude, taskOf] at recorded ⊢
  -- Both runs have settled the same result, so both fail or both go on.
  split
  · exact .stopped (lock.fail recorded _ n.name)
  · exact lock.paused (lock.complete recorded n common _) _

theorem execute (pair : R p q) (common : shared n) (en : Entry) :
    Phase.Paired R shared (e.execute x p n en) (e.execute y q n en) := by
  have started := lock.nodeStarts pair n common
  -- The nodes look at the state only after the hooks have been told, so the relation is needed
  -- there.
  have attempt := lock.attempt started n common en
  simp only [Engine.execute, ← attempt]
  split
  · exact lock.conclude started common en _
  · exact lock.conclude (lock.cancel started) common en _
  · exact .lingering started common
  · exact .broken

/-- Taking an entry of a node that the runs have in common keeps them together. -/
theorem take (pair : R p q) (en : Entry) (node : x.graph.node? en.node = y.graph.node? en.node)
    (common : ∀ n, x.graph.node? en.node = some n → shared n) :
    Phase.Paired R shared (e.take x p en) (e.take y q en) := by
  -- Both have as many steps left and find the same node, so they take the same branch.
  have left := lock.left pair
  cases allowed : p.left with
  | zero =>
    simp only [Engine.take, allowed, ← left]
    exact .stopped (lock.fail pair _ _)
  | succ k =>
    rw [allowed] at left
    have spent := lock.spend pair k
    cases known : x.graph.node? en.node with
    | none =>
      rw [take_unknown allowed known, take_unknown left.symm (node.symm.trans known)]
      exact .stopped (lock.fail spent _ _)
    | some n =>
      cases status : n.disabled with
      | true =>
        rw [take_bypass allowed known status, take_bypass left.symm (node.symm.trans known) status]
        exact .ready (lock.complete spent n (common n known) _)
      | false =>
        rw [take_execute allowed known status,
          take_execute left.symm (node.symm.trans known) status]
        exact lock.execute spent (common n known) en

/-- Two phases that are paired take the same entry next. -/
theorem next? (paired : Phase.Paired R shared φ ψ) : φ.next? = ψ.next? := by
  cases paired with
  | ready pair => simp only [Phase.next?, lock.canceled pair, lock.stack pair]
  | lingering => rfl
  | stopped => rfl
  | broken => rfl

variable (takes : ∀ {p q}, R p q → ∀ en, Phase.Paired R shared (e.take x p en) (e.take y q en))
include takes

/-- **A step keeps two runs together.** -/
theorem step (paired : Phase.Paired R shared φ ψ) :
    Phase.Paired R shared (e.step x φ) (e.step y ψ) := by
  cases paired with
  | @ready p q pair =>
    have canceled := lock.canceled pair
    have stack := lock.stack pair
    simp only [Engine.step, ← canceled, ← stack]
    split
    · exact .stopped pair
    · split
      · exact .stopped pair
      · rename_i en rest _
        exact takes (lock.pop pair rest) en
  | lingering pair common =>
    have canceled := lock.canceled pair
    simp only [Engine.step, ← canceled]
    split
    · exact lock.conclude pair common _ _
    · exact .lingering pair common
  | stopped pair => exact .stopped pair
  | broken => exact .broken

theorem steps (paired : Phase.Paired R shared φ ψ) (k : Nat) :
    Phase.Paired R shared (e.steps x k φ) (e.steps y k ψ) := by
  induction k generalizing φ ψ with
  | zero => exact paired
  | succ k ih => exact ih (lock.step takes paired)

/-- **Two runs that are kept together take the same entries.** -/
theorem taken (paired : Phase.Paired R shared φ ψ) (k : Nat) : e.taken x k φ = e.taken y k ψ := by
  -- The first step takes the same entry in both runs, and the rest begins where it has led them.
  induction k generalizing φ ψ with
  | zero => rfl
  | succ k ih => rw [Engine.taken, Engine.taken, lock.next? paired, ih (lock.step takes paired)]

omit takes in
theorem bound (paired : Phase.Paired R shared φ ψ) : φ.bound = ψ.bound := by
  cases paired with
  | ready pair => simp only [Phase.bound, lock.left pair]
  | lingering pair => simp only [Phase.bound, lock.left pair]
  | stopped => rfl
  | broken => rfl

/-- **And they come to the same end.** -/
theorem advance (paired : Phase.Paired R shared φ ψ) :
    Phase.Paired R shared (e.advance x φ) (e.advance y ψ) := by
  rw [Engine.advance, Engine.advance, lock.bound paired]
  exact lock.steps takes paired _

theorem history (paired : Phase.Paired R shared φ ψ) : e.history x φ = e.history y ψ := by
  rw [Engine.history, Engine.history, lock.bound paired]
  exact lock.taken takes paired _

end Lockstep

end Engine

end Conveyor
