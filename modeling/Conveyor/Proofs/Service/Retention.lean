/-
Which failures leave a record.

A workflow may ask for the records of its failed runs to be removed. Whether this is to be done is
decided when a run has ended, from the status that it has ended with, and done when the run is kept.
A job has another two ways to fail: the engine refuses to begin the run, or a node breaks down. Then
no run has ended, there is nothing to keep or to remove, and the failure is written into the record
that is there. So a failure leaves no record exactly if the workflow does not want it and the run
has come to its end (`Tracks.discarded`).
-/
import Conveyor.Proofs.Engine.Trail
import Conveyor.Proofs.Service.Settlement

set_option autoImplicit false

namespace Conveyor

/-- A run that has ended is to be removed if the settings of its workflow say so of the status that
it has. -/
theorem Engine.Keeps.needsDelete {e : Engine} (statuses : e.Keeps Run.status)
    (flags : e.Keeps Run.needsDelete) (x : Execution) (p : Pass) (c : Bool) :
    (e.finish x p c).1.needsDelete
      = (e.finish x p c).1.status.needsDelete x.graph.workflow.settings := by
  rw [flags.finish, statuses.finish]
  rfl

namespace Traffic

variable {t : Traffic} {m : Move} {ms : List Move} {k : Nat} {w : Workflow} {r : Record}
  {j j' : Job}

/-- The record follows the job until somebody else opens or writes it. -/
theorem Tracks.moves (tracks : t.Tracks k w r j) (working : t.service.outage = none)
    (ids : t.service.engine.Keeps Run.id) (alone : t.Never (fun t m => t.Disturbs j.id k m) ms) :
    ∃ j', (t.moves ms).Tracks k w r j' ∧ j'.id = j.id := by
  induction ms generalizing t j with
  | nil => exact ⟨j, tracks, rfl⟩
  | cons m ms ih =>
    obtain ⟨first, rest⟩ := never_cons.1 alone
    obtain ⟨engine, -, outage⟩ := fixed_move t m
    obtain ⟨j₁, tracks₁, id₁, -⟩ := tracks.move working ids first
    obtain ⟨j₂, tracks₂, id₂⟩ := ih tracks₁ (outage.trans working) (engine ▸ ids) (id₁ ▸ rest)
    exact ⟨j₂, tracks₂, id₂.trans id₁⟩

/-- A failure leaves no record exactly if its workflow does not want it and its run has come to its
end. -/
theorem Tracks.discarded {result : Except Failure Run} (tracks : t.Tracks k w r j)
    (statuses : t.service.engine.Keeps Run.status) (flags : t.service.engine.Keeps Run.needsDelete)
    (ended : j.stage = .ended result)
    (fails : ∀ run, result = .ok run → run.status = .failed ∨ run.status = .crashed) :
    t.service.records.get? j.id = none ↔ w.settings.onFailure = .none ∧
      ∃ run, result = .ok run := by
  obtain ⟨-, serves, record⟩ := tracks
  rw [ended] at serves record
  have left : t.service.records.get? j.id = r.after t.service.engine.now result := record
  rw [left]
  cases result with
  | ok run =>
    obtain ⟨x, p, c, -, rfl, same⟩ := serves run rfl
    have flag : run.needsDelete = run.status.needsDelete x.graph.workflow.settings := by
      rw [same]
      exact statuses.needsDelete flags x p c
    have asked : run.status.needsDelete x.graph.workflow.settings
        = decide (x.graph.workflow.settings.onFailure = .none) := by
      rcases fails run rfl with status | status <;> rw [status] <;> rfl
    simp only [Record.after, flag, asked, decide_eq_true_eq, ite_eq_left_iff, reduceCtorEq,
      imp_false, not_not, Except.ok.injEq, exists_eq', and_true]
  | error f => simp only [Record.after, reduceCtorEq, exists_false, and_false]

/-- **Which failures leave no record.** A run is launched on a record that is there, its job comes
to its end, and nobody else opens or writes the record meanwhile. If the run has failed, its record
is gone exactly if its workflow does not want the records of failed runs and the run has come to its
end. Where the engine has refused the run or a node has broken down, the record is there and tells
the failure. -/
theorem discarded_iff {pre : List Move} {request : Request} {result : Except Failure Run}
    (begun : t.Begun) (proper : Proper pre) (ids : t.service.engine.Keeps Run.id)
    (statuses : t.service.engine.Keeps Run.status) (flags : t.service.engine.Keeps Run.needsDelete)
    (launches : (t.moves pre).Launches m k j) (work : j.stage = .launched (.engine w request))
    (there : ((t.moves pre).service.records.get? j.id).isSome)
    (alone : ((t.moves pre).move m).Never (fun t m => t.Disturbs j.id k m) ms)
    (job : (((t.moves pre).move m).moves ms).service.jobs[k]? = some j')
    (ended : j'.stage = .ended result)
    (fails : ∀ run, result = .ok run → run.status = .failed ∨ run.status = .crashed) :
    ((((t.moves pre).move m).moves ms).service.records.get? j.id = none ↔
      w.settings.onFailure = .none ∧ ∃ run, result = .ok run) ∧
    ∀ f, result = .error f → ∃ r,
      (((t.moves pre).move m).moves ms).service.records.get? j.id = some r ∧
      r.status = f.status := by
  have sound := begun.sound.moves proper
  obtain ⟨r, found⟩ := Option.isSome_iff_exists.1 there
  have engine : ((t.moves pre).move m).service.engine = t.service.engine :=
    (fixed_move _ m).1.trans (engine_moves t pre)
  have working : ((t.moves pre).move m).service.outage = none :=
    (fixed_move _ m).2.2.trans sound.working
  -- The job is tracked to its end: nobody disturbs it, so the record is what its own steps have
  -- left.
  obtain ⟨j₁, tracks, own⟩ := (launches.tracks sound work found).moves working (engine ▸ ids) alone
  obtain rfl := Option.some.inj (tracks.job.symm.trans job)
  -- The engine does not change, so what was assumed of its hooks holds of the one at the end.
  have engine' := (engine_moves ((t.moves pre).move m) ms).trans engine
  refine ⟨own ▸ tracks.discarded (engine' ▸ statuses) (engine' ▸ flags) ended fails,
    fun f failed => ?_⟩
  have record := tracks.record
  rw [ended, failed, own] at record
  exact ⟨_, record, rfl⟩

end Traffic

/-! ## A failure that is not wanted -/

namespace Detour

/-- The workflow with the detour, which does not want the records of failed runs. -/
def discarding : Workflow := { workflow with settings := { onFailure := .none } }

/-- Breaks down. -/
def blast : NodeType where
  spec := { name := "blast", displayName := "Blast" }
  execute _ := .breaks "out of order"

/-- The traffic of a service whose nodes are of one type. -/
def hosting (relay : NodeType) : Traffic := { service := { service with engine := engine relay } }

/-- The run is registered. -/
def registering : List Move :=
  [.begin (.start discarding .manual (some "Start") none), .call 0, .call 0]

theorem begun_hosting (relay : NodeType) : (hosting relay).Begun where
  calls := rfl
  jobs := rfl
  working := rfl
  keyed := begun.keyed

theorem keeps_hosting {α : Type} (relay : NodeType) (f : Run → α) :
    (hosting relay).service.engine.Keeps f :=
  fun _ hook => absurd hook List.not_mem_nil

theorem proper_registering : Traffic.Proper registering := by
  intro c hc
  simp only [registering, List.mem_cons, Move.begin.injEq, reduceCtorEq, List.not_mem_nil,
    or_false] at hc
  exact hc ▸ .start ..

/-- Nobody but the job takes a step. -/
theorem undisturbed (t : Traffic) (n : Nat) :
    t.Never (fun t m => t.Disturbs "run" 0 m) (List.replicate n (.job 0)) := by
  refine Traffic.never_of_forall fun m hm t disturbs => ?_
  have same := List.eq_of_mem_replicate hm
  rcases disturbs with ⟨k', call, _⟩ | ⟨k', other, job, _⟩
  · exact Move.noConfusion (same.symm.trans call)
  · exact other (Move.job.inj (job.symm.trans same))

end Detour

/-- A run that ends with a failing node leaves no record. -/
theorem fault_discarded :
    (((((Detour.hosting Detour.fault).moves Detour.registering).move (.call 0)).moves
      (List.replicate 5 (.job 0))).service.records.get? "run" = none) := by
  have launches : ((Detour.hosting Detour.fault).moves Detour.registering).Launches (.call 0) 0
      ⟨"run", 0,
        .launched (.engine Detour.discarding (.start "run" .manual (some "Start") none))⟩ :=
        ⟨rfl, rfl⟩
  refine (Traffic.discarded_iff (Detour.begun_hosting _) Detour.proper_registering
    (Detour.keeps_hosting _ _) (Detour.keeps_hosting _ _) (Detour.keeps_hosting _ _) launches rfl
    rfl (Detour.undisturbed _ 5) rfl rfl
    ?_).1.2 ⟨rfl, _, rfl⟩
  intro run same
  obtain rfl := Except.ok.inj same
  exact .inl rfl

/-- **A failure that is on record although its workflow does not want it.** A node breaks down; the
job has come to its end, and the record says that the run has crashed. -/
theorem blast_recorded : (Detour.hosting Detour.blast).Begun ∧ Traffic.Proper Detour.registering ∧
    Detour.discarding.settings.onFailure = .none ∧
    (∃ j message, ((((Detour.hosting Detour.blast).moves Detour.registering).move (.call 0)).moves
      (List.replicate 5 (.job 0))).service.jobs = [j] ∧ j.id = "run" ∧
      j.stage = .ended (.error (.crash message))) ∧
    ∃ r, ((((Detour.hosting Detour.blast).moves Detour.registering).move (.call 0)).moves
      (List.replicate 5 (.job 0))).service.records.get? "run" = some r ∧ r.status = .crashed :=
  ⟨Detour.begun_hosting _, Detour.proper_registering, rfl, ⟨_, _, rfl, rfl, rfl⟩, _, rfl, rfl⟩

end Conveyor
