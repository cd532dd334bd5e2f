/-
How many entries a pass takes, and what ends it with an error.

An engine allows a pass a number of entries. The count is kept in the pass (`left`) and goes down by
one with every entry that is taken; the entry that is one too many is taken from the stack and
refused. So a pass takes one entry more than it is allowed at most, and does so only in its last
step, which leaves the error of the engine with the name of that entry's node. Each of the other
entries leads to one task at most, so no more tasks are recorded than entries are allowed. All this
is counted along the history of the pass (`Within`), whatever its workflow looks like: with cycles,
nothing else would end it.

There is only one other way to end with an error. A node fails that is enabled and stops its
workflow then; that the node of an entry is not there does not happen, as a run that is sane knows
all nodes on its stack.
-/
import Conveyor.Proofs.Engine.Outcome
import Conveyor.Proofs.Engine.Progress

set_option autoImplicit false

namespace Conveyor

/-- How many entries were taken that are still being worked on. -/
def Phase.pending : Phase → Nat
  | lingering .. => 1
  | ready _ | stopped .. | broken _ => 0

namespace Engine

variable {e : Engine} {x : Execution} {φ φ' φ₀ : Phase} {p p' : Pass} {h : List Entry} {d : RunData}
  {w : Workflow} {r : Request} {s : RunState}

/-- The entry in the hands of a node is taken now, or it was and is still being worked on. -/
theorem Holds.pending {en : Entry} {n : Node} (holds : Holds x φ en n) :
    φ.pending + φ.next?.toList.length = 1 := by
  cases holds with
  | taking next =>
    obtain ⟨p, rfl⟩ := Phase.ready_of_next? next
    rw [next]
    rfl
  | lingering => rfl

/-! ## The invariant -/

/-- The last entry that was taken is one too many, and this is the error. -/
def Overrun (e : Engine) (h : List Entry) (err : RunError) : Prop :=
  ∃ before en, h = before ++ [en] ∧ before.length = e.maxIterations ∧
    err = ⟨e.limitMessage, some en.node⟩

/-- A node that is enabled and stops its workflow when it fails has failed with this error. -/
def Stopping (w : Workflow) (err : RunError) : Prop :=
  ∃ n ∈ w.nodes, n.disabled = false ∧ n.onError = .stopWorkflow ∧ err.node = some n.name

/-- A pass that began with the tasks `d` and has taken the entries `h` is within the limit of its
engine. -/
structure Within (e : Engine) (x : Execution) (d : RunData) (h : List Entry) (φ : Phase)
    (p : Pass) : Prop where
  sane : Sane x.graph φ p
  count : φ.Going → p.left + h.length = e.maxIterations
  /-- A node that lingers is an enabled node of the workflow. -/
  held : ∀ {q n en r}, φ = .lingering q n en r → n ∈ x.graph.workflow.nodes ∧ n.disabled = false
  most : h.length ≤ e.maxIterations + 1
  beyond : e.maxIterations < h.length → ∃ err, p.state.error = some err
  error : ∀ err, p.state.error = some err → e.Overrun h err ∨
    (h.length ≤ e.maxIterations ∧ Stopping x.graph.workflow err)
  tasks : ∃ ts, p.state.tasks = d.recordAll ts ∧ ts.length + φ.pending ≤ h.length ∧
    ts.length + φ.pending ≤ e.maxIterations

/-- The node of an entry in hand is an enabled node of the workflow. -/
theorem Within.node {en : Entry} {n : Node} (within : Within e x d h φ p) (holds : Holds x φ en n) :
    n ∈ x.graph.workflow.nodes ∧ n.disabled = false := by
  cases holds with
  | taking _ node enabled => exact ⟨Graph.mem_of_node? node, enabled⟩
  | lingering => exact within.held rfl

/-- Only a node that is known and stops its workflow leaves a task that has failed. -/
theorem Within.stopping {en : Entry} {n : Node} {q : Pass} {t : Task} {err : RunError}
    {s : RunState} (within : Within e x d h φ p) (holds : Holds x φ en n)
    (records : Records e x φ en n q t s) (status : t.status = .error)
    (blames : err.node = some n.name) : Stopping x.graph.workflow err := by
  obtain ⟨known, enabled⟩ := within.node holds
  obtain ⟨_, result, _, _, rfl⟩ := records.works
  exact ⟨n, known, enabled, (result.settle_error n.onError (e.registry.outputs n.type) status).1,
    blames⟩

/-- As long as an entry may be taken, the entries are no more than are allowed. -/
theorem Within.length_le (within : Within e x d h φ p) (going : φ.Going)
    (allowed : φ.next?.toList.length ≤ p.left) :
    (h ++ φ.next?.toList).length ≤ e.maxIterations := by
  have count := within.count going
  rw [List.length_append]
  omega

/-- A step records no more tasks than entries are taken or were being worked on. -/
theorem Within.recorded (within : Within e x d h φ p) (going : φ.Going)
    (allowed : φ.next?.toList.length ≤ p.left) (new : List (String × Task))
    (tasks : p'.state.tasks = p.state.tasks.recordAll new)
    (few : new.length + φ'.pending ≤ φ.pending + φ.next?.toList.length) :
    ∃ ts, p'.state.tasks = d.recordAll ts ∧ ts.length + φ'.pending ≤ (h ++ φ.next?.toList).length ∧
      ts.length + φ'.pending ≤ e.maxIterations := by
  have le := within.length_le going allowed
  obtain ⟨ts, recorded, lengths, -⟩ := within.tasks
  have lengths' : (ts ++ new).length + φ'.pending ≤ (h ++ φ.next?.toList).length := by
    rw [List.length_append, List.length_append]
    omega
  exact ⟨ts ++ new, by rw [tasks, recorded, RunData.recordAll_append], lengths',
    Nat.le_trans lengths' le⟩

/-- A step that leaves no error keeps a pass within the limit. -/
theorem Within.fine (within : Within e x d h φ p) (going : φ.Going)
    (allowed : φ.next?.toList.length ≤ p.left) (sane : Sane x.graph φ' p')
    (count : φ'.Going → p'.left + (h ++ φ.next?.toList).length = e.maxIterations)
    (held : ∀ {q n en r}, φ' = .lingering q n en r →
      n ∈ x.graph.workflow.nodes ∧ n.disabled = false)
    (error : p'.state.error = none) (new : List (String × Task))
    (tasks : p'.state.tasks = p.state.tasks.recordAll new)
    (few : new.length + φ'.pending ≤ φ.pending + φ.next?.toList.length) :
    Within e x d (h ++ φ.next?.toList) φ' p' := by
  have le := within.length_le going allowed
  refine ⟨sane, count, held, Nat.le_succ_of_le le, fun beyond => absurd le (Nat.not_le.2 beyond),
    fun err failed => ?_, within.recorded going allowed new tasks few⟩
  rw [error] at failed
  simp only [reduceCtorEq] at failed

/-- The entry that is one too many stops the pass, with the error of the engine. -/
theorem Within.refused {en : Entry} (within : Within e x d h φ p) (next : φ.next? = some en)
    (spent : p.left = 0) (sane : Sane x.graph φ' p') (phase : φ' = .stopped p' false)
    (tasks : p'.state.tasks = p.state.tasks)
    (error : p'.state.error = some ⟨e.limitMessage, some en.node⟩) :
    Within e x d (h ++ [en]) φ' p' := by
  have full : h.length = e.maxIterations := by
    have count := within.count (Phase.going_of_next? next)
    rwa [spent, Nat.zero_add] at count
  obtain ⟨ts, recorded, lengths, few⟩ := within.tasks
  subst phase
  refine ⟨sane, False.elim, nofun, ?_, fun _ => ⟨_, error⟩, fun err failed => .inl ?_, ts,
    tasks.trans recorded, ?_, ?_⟩
  · rw [List.length_append, full]
    exact Nat.le_refl _
  · exact ⟨h, en, rfl, full, Option.some.inj (failed.symm.trans error)⟩
  · rw [List.length_append]
    simp only [Phase.pending]
    omega
  · simp only [Phase.pending]
    omega

/-- **Every step keeps a pass within the limit.** -/
theorem Within.step (within : Within e x d h φ p) (hp : φ.pass? = some p) (hp' : φ'.pass? = some p')
    (effect : Effect e x φ φ' p p') : Within e x d (h ++ φ.next?.toList) φ' p' := by
  have sane' := within.sane.step hp hp' effect
  have count : φ'.Going → p'.left + (h ++ φ.next?.toList).length = e.maxIterations := fun going =>
    (effect.total hp hp' going h).trans (within.count (effect.left hp hp' going).1)
  cases effect with
  | idle next state phase =>
    rw [next, Option.toList_none, List.append_nil] at count ⊢
    obtain ⟨ts, recorded, lengths, few⟩ := within.tasks
    have pending : φ'.pending ≤ φ.pending := by
      rcases phase with rfl | rfl
      · exact Nat.le_refl _
      · exact Nat.zero_le _
    refine ⟨sane', count, fun lingers => ?_, within.most, fun beyond => ?_, fun err failed => ?_,
      ts, ?_, ?_, ?_⟩
    · rcases phase with rfl | rfl
      · exact within.held lingers
      · simp only [reduceCtorEq] at lingers
    · rw [state]
      exact within.beyond beyond
    · rw [state] at failed
      exact within.error err failed
    · rw [state, recorded]
    · omega
    · omega
  | @refused en stack err next below state phase whole why blames limit =>
    obtain ⟨spent, overrun⟩ := within.sane.overrun hp next why blames limit
    rw [next, Option.toList_some]
    exact within.refused next spent sane' phase (by rw [state]; rfl) (by rw [state, overrun])
  | @lingers en n stack r next below node enabled state index left phase =>
    have going := Phase.going_of_next? next
    have holds : Holds x φ en n := .taking next node enabled
    -- The entry is taken and leaves no task yet: from here on it is pending.
    refine within.fine going (by rw [next, left]; exact Nat.le_add_left 1 _) sane' count
      (fun lingers => ?_)
      (by rw [state]; exact (within.sane.calm going).1) [] (by rw [state]; rfl)
      (by rw [phase, holds.pending]; exact Nat.le_refl 1)
    rw [phase] at lingers
    obtain ⟨-, rfl, -, -⟩ := Phase.lingering.inj lingers
    exact ⟨Graph.mem_of_node? node, enabled⟩
  | @bypassed en n stack next below node disabled state index left phase =>
    have going := Phase.going_of_next? next
    exact within.fine going (by rw [next, left]; exact Nat.le_add_left 1 _) sane' count
      (fun lingers => by simp only [phase, reduceCtorEq] at lingers)
      (by rw [state]; exact (within.sane.calm going).1) [] (by rw [state]; rfl)
      (by rw [phase]; exact Nat.zero_le _)
  | @failed en n q t s stack err holds records below index status state phase whole blames =>
    have going := holds.going
    have allowed : φ.next?.toList.length ≤ p.left := (records.state hp).2.2.1 ▸ Nat.le_add_left _ _
    have le := within.length_le going allowed
    subst phase
    -- The entry was allowed, so the error cannot be that of the engine.
    refine ⟨sane', False.elim, nofun, Nat.le_succ_of_le le,
      fun beyond => absurd le (Nat.not_le.2 beyond), fun err' failed => .inr ⟨le, ?_⟩,
      within.recorded going allowed [(n.name, t)] (by rw [state]; rfl)
        (by rw [holds.pending]; exact Nat.le_refl 1)⟩
    rw [state] at failed
    obtain rfl : err = err' := Option.some.inj failed
    exact within.stopping holds records status blames
  | @completed en n q t s stack till holds records below index status state phase =>
    have going := holds.going
    have allowed : φ.next?.toList.length ≤ p.left := (records.state hp).2.2.1 ▸ Nat.le_add_left _ _
    have moves : φ'.pending = 0 ∧ ∀ {q n en r}, φ' ≠ .lingering q n en r := by
      rcases phase with ⟨rfl, -⟩ | ⟨rfl, -⟩ <;> exact ⟨rfl, nofun⟩
    exact within.fine going allowed sane' count (fun lingers => absurd lingers moves.2)
      (by rw [state]; exact (within.sane.calm going).1) [(n.name, t)] (by rw [state]; rfl)
      (by rw [moves.1, holds.pending]; exact Nat.le_refl 1)

/-- To cancel a pass that goes on changes nothing of this. -/
theorem Within.cancel (within : Within e x d h φ p) (going : φ.Going) (same : p'.state = p.state)
    (left : p'.left = p.left) (pending : φ'.pending = φ.pending)
    (held : ∀ {q n en r}, φ' = .lingering q n en r → n ∈ x.graph.workflow.nodes ∧
      n.disabled = false) :
    Within e x d h φ' p' :=
  ⟨within.sane.cancel going same, fun _ => left ▸ within.count going, held, within.most,
    same ▸ within.beyond, same ▸ within.error, same ▸ pending ▸ within.tasks⟩

/-- A pass that begins is within the limit. -/
theorem Within.begin (ready : Ready s x.graph.workflow) (hk : e.Watched) (canceled : Bool) :
    ∀ p, (e.begin x s canceled).pass? = some p → Within e x s.tasks []
    (e.begin x s canceled) p := by
  intro p hp
  have sane := ready.begin hk canceled p hp
  obtain ⟨q, begins, ⟨stack, -, state⟩, -, left, -⟩ := hk.begin x s canceled
  rw [begins] at hp sane ⊢
  obtain rfl := Option.some.inj hp
  refine ⟨sane, fun _ => left, nofun, Nat.zero_le _,
    fun beyond => absurd beyond (Nat.not_lt_zero _), fun err failed => ?_, [], by rw [state]; rfl,
    Nat.le_refl 0, Nat.zero_le _⟩
  rw [(sane.calm trivial).1] at failed
  simp only [reduceCtorEq] at failed

/-- **A pass is within the limit at every moment.** -/
theorem Leads.within (hk : e.Watched) (ready : Ready s x.graph.workflow) {canceled : Bool}
    (run : Leads e x (e.begin x s canceled) h φ) (hp : φ.pass? = some p) :
    Within e x s.tasks h φ p :=
  Leads.induct hk (Within e x s.tasks) (Within.begin ready hk canceled)
    (fun _ hp hp' within effect => within.step hp hp' effect)
    (fun within => within.cancel trivial rfl rfl rfl nofun)
    (fun within => within.cancel trivial rfl rfl rfl fun same => by
      obtain ⟨-, rfl, -, -⟩ := Phase.lingering.inj same
      exact within.held rfl) run hp

/-- A pass that has taken one entry too many has stopped with the error that tells so. -/
theorem Within.overrun (within : Within e x d h φ p) (beyond : e.maxIterations < h.length) :
    ¬ φ.Going ∧ ∃ err, p.state.error = some err ∧ e.Overrun h err := by
  obtain ⟨err, failed⟩ := within.beyond beyond
  refine ⟨fun going => ?_, err, failed, (within.error err failed).resolve_right fun stopping => ?_⟩
  · have count := within.count going
    omega
  · exact absurd stopping.1 (Nat.not_le.2 beyond)

/-! ## What the run tells of it -/

/-- A run has failed if its pass has left an error, and only then. -/
theorem Sane.failed_iff (hk : e.Watched) {c : Bool} (sane : Sane x.graph (.stopped p c) p) :
    (e.finish x p c).1.status = .failed ↔ ∃ err, p.state.error = some err := by
  rw [hk.finish_status]
  rcases sane.either with fine | awake
  · rw [fine]
    cases c <;> cases p.state.waitTill <;> simp [RunStatus.ofOutcome]
  · rw [awake]
    cases c <;> cases p.state.error <;> simp [RunStatus.ofOutcome]

/-- **A run that is made tells how its pass kept within the limit.** -/
theorem Completes.within (hk : e.Watched) {ts : List (String × Task)} {run : Run}
    (genuine : Genuine w r) (completes : e.Completes w r h ts run) : ∃ x p c, x.graph.workflow = w ∧
      Within e x r.tasks h (.stopped p c) p ∧ run.state.error = p.state.error ∧
        run.state.tasks = p.state.tasks ∧
      (run.status = .failed ↔ ∃ err, run.state.error = some err) := by
  cases completes with
  | @intro x s canceled p c prepared trail =>
    obtain rfl := workflow_of_graph (prepare_graph prepared).1
    have within := Leads.within hk (genuine.ready prepared) trail.leads rfl
    rw [prepare_tasks prepared] at within
    obtain ⟨stack, -, final⟩ := hk.finish x p c
    have error : (e.finish x p c).1.state.error = p.state.error := by rw [final]; rfl
    have tasks : (e.finish x p c).1.state.tasks = p.state.tasks := by rw [final]; rfl
    exact ⟨x, p, c, rfl, within, error, tasks, by rw [error]; exact within.sane.failed_iff hk⟩

end Engine

end Conveyor
