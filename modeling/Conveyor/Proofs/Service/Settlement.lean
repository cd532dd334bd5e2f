/-
Record, table and result agree.

An operation that succeeds has opened the record of its run and has put the run into the table, and
its job is the last one that was launched (`perform_ok`). From then on the record follows the job:
as long as the run is under way the record is the one that was opened, and when the job has a result
the record is what this result makes of it (`JobStage.Tells`, `Record.after`). This holds whatever
else goes on, as long as nobody else opens or writes the record (`Tracks.move`).

If nothing else goes on, the job gets to its end, or to a node that waits for a cancellation that
has not come (`Tracks.rests`), and what it leaves as it was is everything but its own entry, its own
record and its own token (`Beside`).
-/
import Conveyor.Proofs.Engine.Progress
import Conveyor.Proofs.Service.Ownership

set_option autoImplicit false

namespace Conveyor

/-! ## Up to the launch -/

namespace Service

variable {s s' : Service} {c : Call} {id : String}

theorem perform_step (going : c.result? = none) :
    s.perform c = (c.step s).2.perform (c.step s).1 := by
  rw [perform]
  split
  · rename_i result done
    simp only [going, reduceCtorEq] at done
  · rfl

theorem perform_finished (s : Service) (result : Except ServiceError String) :
    s.perform (.finished result) = (result, s) := by
  rw [perform]
  rfl

/-- A run has entered the table and was launched. -/
def started (s : Service) (id : String) (mode : RunMode) (w : Workflow) (request : Request) :
    Service :=
  { s.enter id w.id mode with jobs := s.jobs ++ [⟨id, s.tokens, .launched (.engine w request)⟩] }

/-- An operation that has come to the table launches its run. -/
theorem perform_enter (s : Service) (id : String) (mode : RunMode) (w : Workflow)
    (request : Request) :
    s.perform (.enter id mode w request) = (.ok id, s.started id mode w request) := by
  have launched : (s.enter id w.id mode).launch id (.engine w request)
      = .ok (s.started id mode w request) := by
    simp only [launch, enter, Named.get?_insert_self]
    rfl
  rw [perform_step rfl, Call.step, perform_step rfl, Call.step, launched, perform_finished]

theorem perform_create (working : s.outage = none) (w : Workflow) (mode : RunMode)
    (request : String → Request) :
    s.perform (.create w mode request) = (.ok (s.recordId (s.created + 1)),
      ({ s with
        records := s.records.insert (s.recordId (s.created + 1))
          { id := s.recordId (s.created + 1), workflowId := w.id, mode := mode, status := .running,
            startedAt := s.engine.now }
        created := s.created + 1 } : Service).started (s.recordId (s.created + 1)) mode w
          (request (s.recordId (s.created + 1)))) := by
  rw [perform_step rfl, Call.step, createRecord_of_working working]
  simp only [perform_enter]
  rfl

/-- The record that is opened for a run: it is a new one, or it was there before and is marked as
running again. -/
inductive Opened (s : Service) (id : String) : Call → Record → Prop
  | new {c : Call} (first : ∀ id, c ≠ .resume id) (workflowId : String) (mode : RunMode) :
      Opened s id c
        { id := id, workflowId := workflowId, mode := mode, status := .running,
          startedAt := s.engine.now }
  | again {r : Record} (found : s.records.get? id = some r) :
      Opened s id (.resume id) { r with status := .running, waitTill := none }

/-- **An operation that succeeds** has opened a record, and has launched a run under the id of the
record. -/
theorem perform_ok (working : s.outage = none) (keyed : s.records.Keyed) (begins : c.Begins)
    (done : s.perform c = (.ok id, s')) :
    ∃ r created mode w request, s.Opened id c r ∧ request.id = id ∧
      s' = ({ s with records := s.records.insert id r, created := created } : Service).started id
        mode w request := by
  -- However a new run is asked for, its record is created first.
  have created : ∀ {c : Call} {w : Workflow} {mode : RunMode} {request : String → Request},
      (∀ id, c ≠ .resume id) → (∀ id, (request id).id = id) →
      s.perform (.create w mode request) = (.ok id, s') →
      ∃ r created mode w request, s.Opened id c r ∧ request.id = id ∧
        s' = ({ s with records := s.records.insert id r, created := created } : Service).started
          id mode w request := by
    intro c w mode request first own done
    rw [perform_create working] at done
    obtain ⟨same, rfl⟩ := Prod.mk.inj done
    obtain rfl := Except.ok.inj same
    exact ⟨_, _, mode, w, _, .new first w.id mode, own _, rfl⟩
  cases begins with
  | find workflowId mode items =>
    rw [perform_step rfl, Call.step] at done
    split at done
    · exact created (fun _ => Call.noConfusion) (fun _ => rfl) done
    · simp only [Call.fail, perform_finished, Prod.mk.injEq, reduceCtorEq, false_and] at done
  | start w mode startNode items => exact created (fun _ => Call.noConfusion) (fun _ => rfl) done
  | rerun w mode startNode prior => exact created (fun _ => Call.noConfusion) (fun _ => rfl) done
  -- A resumption fails at each of its checks; what gets past them all has found the record it goes
  -- on with.
  | resume id' =>
    rw [Call.resume, perform_step rfl, Call.step, record?, working] at done
    simp only at done
    split at done
    · simp only [reduceCtorEq] at *
    · simp only [Call.fail, perform_finished, Prod.mk.injEq, reduceCtorEq, false_and] at done
    · rename_i record found
      have found : s.records.get? id' = some record := Except.ok.inj found
      split at done
      · rw [perform_step rfl, Call.step] at done
        split at done
        · rename_i w known
          rw [perform_step rfl, Call.step, reopenRecord_of_some working found] at done
          simp only [perform_enter, Prod.mk.injEq, Except.ok.injEq] at done
          obtain ⟨rfl, rfl⟩ := done
          exact ⟨_, s.created, _, w, .resume record.toRun, .again found, keyed _ _ found, rfl⟩
        · simp only [Call.fail, perform_finished, Prod.mk.injEq, reduceCtorEq, false_and] at done
      · simp only [Call.fail, perform_finished, Prod.mk.injEq, reduceCtorEq, false_and] at done

end Service

/-! ## The record follows the job -/

/-- What a result makes of the record of its run: a run that has ended is kept or removed, a failure
gives the record a status. -/
def Record.after (now : Time.Instant) (r : Record) : Except Failure Run → Option Record
  | .ok run => if run.needsDelete then none else some (.ofRun run)
  | .error f => some (r.withStatus now f.status)

/-- What a job at a stage says of the record of its run, given the record that was opened for it. -/
def JobStage.Tells (now : Time.Instant) (r : Record) (found : Option Record) : JobStage → Prop
  | launched _ | running .. | returned (.error _) => found = some r
  | returned (.ok run) => found = r.after now (.ok run)
  | recorded result | ended result => found = r.after now result
  | collected => False

namespace Traffic

variable {t : Traffic} {m : Move} {ms : List Move} {id : String} {k : Nat} {w : Workflow}
  {r : Record} {j j' : Job}

/-- The job at a position runs a workflow under its id, and the record of this id follows it. -/
structure Tracks (t : Traffic) (k : Nat) (w : Workflow) (r : Record) (j : Job) : Prop where
  job : t.service.jobs[k]? = some j
  serves : j.stage.Serves t.service.engine j.id w
  record : j.stage.Tells t.service.engine.now r (t.service.records.get? j.id)

/-- By the move somebody else than the job at a position opens or writes the record of an id. -/
def Disturbs (t : Traffic) (id : String) (k : Nat) (m : Move) : Prop :=
  (∃ k', m = .call k' ∧ t.Opens id k') ∨ ∃ k', k' ≠ k ∧ m = .job k' ∧ t.Writes id k'

/-- The record follows the job in a step of its own. -/
theorem tells_jobStep {s : Service} (working : s.outage = none) (ids : s.engine.Keeps Run.id)
    (serves : j.stage.Serves s.engine j.id w)
    (tells : j.stage.Tells s.engine.now r (s.records.get? j.id)) :
    (s.jobStep j).1.Tells s.engine.now r ((s.jobStep j).2.records.get? j.id) := by
  have moved := s.jobMoved j
  generalize (s.jobStep j).1 = stage, (s.jobStep j).2 = s' at moved
  cases moved with
  | @begun work before =>
    -- Work is only begun here: the record is as it was opened.
    rw [before] at serves tells
    cases work with
    | host untilCanceled result => exact serves.elim
    | engine w' request =>
      simp only [Service.beginWork]
      split <;> exact tells
  | @went x φ φ' before going next =>
    rw [before] at tells
    -- A node that cancels its run changes a token, and no record.
    have same : (if φ'.isCanceled then s.cancel j.token else s).records = s.records := by
      split <;> rfl
    rw [same]
    exact tells
  | broke before => rw [before] at tells; exact tells
  | @saved x p c before =>
    rw [before] at serves
    have own := (ids.finish x p c).trans serves.1
    rw [Service.keep_of_working working]
    simp only [RecordStore.get?_settle, own, if_true]
    rfl
  | passed before => rw [before] at tells; exact tells
  | @failed f before =>
    rw [before] at tells
    obtain ⟨records, written, own, -⟩ := Service.recordFailure_of_working working j.id f
    have opened : s.records.get? j.id = some r := tells
    rw [written]
    simp only [own, opened, Option.map_some]
    rfl
  | left before => rw [before] at tells; exact tells
  | rested past => exact tells

/-- **The record follows the job** as long as nobody else opens or writes it. -/
theorem Tracks.move (tracks : t.Tracks k w r j) (working : t.service.outage = none)
    (ids : t.service.engine.Keeps Run.id) (apart : ¬ t.Disturbs j.id k m) :
    ∃ j', (t.move m).Tracks k w r j' ∧ j'.id = j.id ∧ j'.token = j.token := by
  obtain ⟨engine, -, -⟩ := fixed_move t m
  by_cases own : m = .job k
  · subst own
    have records : (t.move (.job k)).service.records = (t.service.jobStep j).2.records := by
      simp only [Traffic.move, Service.stepJob, tracks.job]
      rfl
    refine ⟨_, ⟨stage_move tracks.job, ?_, ?_⟩, rfl, rfl⟩
    · rw [engine]
      exact (t.service.jobMoved j).serves tracks.serves
    · rw [engine, records]
      exact tells_jobStep working ids tracks.serves tracks.record
  · refine ⟨j, ⟨stage_of_ne tracks.job own, engine ▸ tracks.serves, ?_⟩, rfl, rfl⟩
    have moved := record_move working m j.id
    rw [engine]
    generalize (t.move m).service.records.get? j.id = found at moved
    cases moved with
    | kept => exact tracks.record
    | opened move opens => exact absurd (.inl ⟨_, move, opens⟩) apart
    -- A record that is saved or marked as failed is that of another job, or else this is the job's
    -- own step.
    | @saved k' j' x p c move job stage same =>
      have other : k' ≠ k := fun here => own (move.trans (congrArg Move.job here))
      exact absurd (.inr ⟨k', other, move, j', job, .inl ⟨x, p, c, stage, same⟩⟩) apart
    | @failed k' j' f move job stage same =>
      have other : k' ≠ k := fun here => own (move.trans (congrArg Move.job here))
      exact absurd (.inr ⟨k', other, move, j', job, .inr ⟨f, stage, same⟩⟩) apart

/-- The job of a run that is launched on a record that is there. -/
theorem Launches.tracks {request : Request} (launches : t.Launches m k j) (sound : t.Sound)
    (work : j.stage = .launched (.engine w request))
    (there : t.service.records.get? j.id = some r) : (t.move m).Tracks k w r j := by
  obtain ⟨k', w', request', rfl, call, stage⟩ := launches.origin
  obtain ⟨rfl, rfl⟩ := Work.engine.inj (JobStage.launched.inj (stage.symm.trans work))
  obtain ⟨entry, found, -⟩ := launches.entry
  refine ⟨launches.2, ?_, ?_⟩
  · rw [work]
    exact ⟨rfl, sound.calls _ (List.mem_of_getElem? call)⟩
  · rw [work, (launch_move call found).2.2]
    exact there

end Traffic

/-! ## Alone -/

/-- The entries and the records of other ids are what they were, and other tokens are canceled if
they were. -/
structure Beside (id : String) (token : Nat) (s s' : Service) : Prop where
  entries : ∀ other, other ≠ id → s'.active.get? other = s.active.get? other
  records : ∀ other, other ≠ id → s'.records.get? other = s.records.get? other
  tokens : ∀ other, other ≠ token → s'.isCanceled other = s.isCanceled other

theorem Beside.refl (id : String) (token : Nat) (s : Service) : Beside id token s s :=
  ⟨fun _ _ => rfl, fun _ _ => rfl, fun _ _ => rfl⟩

theorem Beside.trans {id : String} {token : Nat} {s₁ s₂ s₃ : Service}
    (first : Beside id token s₁ s₂) (second : Beside id token s₂ s₃) : Beside id token s₁ s₃ where
  entries other differ := (second.entries other differ).trans (first.entries other differ)
  records other differ := (second.records other differ).trans (first.records other differ)
  tokens other differ := (second.tokens other differ).trans (first.tokens other differ)

/-- The job waits inside a node for a cancellation that has not come. -/
def Service.Lingers (s : Service) (j : Job) : Prop :=
  ∃ x p n en r, j.stage = .running x (.lingering p n en r) ∧ p.canceled = false ∧
    s.isCanceled j.token = false

/-- How many steps a job may go on for. -/
def Service.jobToGo (s : Service) (j : Job) : Nat :=
  match j.stage with
  | .launched _ => s.engine.maxIterations + 5
  | .running _ φ => (s.seen j.token φ).toGo + 3
  | .returned _ => 2
  | .recorded _ => 1
  | .ended _ | .collected => 0

/-- A job that has left the table has its result, or has handed it out. -/
theorem JobStage.Over.ended {stage : JobStage} (past : stage.Over) :
    (∃ result, stage = .ended result) ∨ stage = .collected := by
  cases stage with
  | ended result => exact .inl ⟨result, rfl⟩
  | collected => exact .inr rfl
  | launched => exact past.elim
  | running => exact past.elim
  | returned => exact past.elim
  | recorded => exact past.elim

theorem Service.jobToGo_eq_zero {s : Service} {j : Job} : s.jobToGo j = 0 ↔ j.stage.Over := by
  cases stage : j.stage <;> simp [jobToGo, stage, JobStage.Over]

theorem Service.jobToGo_le_jobBound (s : Service) (j : Job) : s.jobToGo j ≤ s.jobBound j.stage := by
  cases stage : j.stage with
  | launched work => simp only [jobToGo, jobBound, stage, Nat.le_refl]
  | running x φ =>
    have same : φ.cancel.bound = φ.bound := by cases φ <;> rfl
    have le := φ.toGo_le_bound
    have le' := φ.cancel.toGo_le_bound
    simp only [jobToGo, jobBound, stage, seen]
    split <;> omega
  | returned result => simp only [jobToGo, jobBound, stage, Nat.le_refl]
  | recorded result => simp only [jobToGo, jobBound, stage, Nat.le_succ]
  | ended result => simp only [jobToGo, jobBound, stage, Nat.le_refl]
  | collected => simp only [jobToGo, jobBound, stage, Nat.le_refl]

namespace Phase

variable {φ : Phase}

theorem cancel_of_isCanceled (canceled : φ.isCanceled = true) : φ.cancel = φ := by
  cases φ with
  | ready p => exact congrArg ready (by rw [← show p.canceled = true from canceled])
  | lingering p n en r =>
    exact congrArg (lingering · n en r) (by rw [← show p.canceled = true from canceled])
  | stopped p c => rfl
  | broken message => rfl

/-- A run that goes on and may not take a step waits for a cancellation. -/
theorem lingering_of_toGo (going : φ.Going) (spent : φ.toGo = 0) :
    ∃ p n en r, φ = .lingering p n en r ∧ p.canceled = false := by
  cases φ with
  | ready p => exact absurd spent (Nat.succ_ne_zero _)
  | lingering p n en r =>
    refine ⟨p, n, en, r, rfl, ?_⟩
    cases canceled : p.canceled with
    | false => rfl
    | true =>
      simp only [toGo, canceled, if_true] at spent
      exact absurd spent (Nat.succ_ne_zero _)
  | stopped p c => exact going.elim
  | broken message => exact going.elim

/-- A run that is canceled stays so. -/
theorem isCanceled_step (e : Engine) (x : Execution) (going : φ.Going) :
    (e.step x φ.cancel).isCanceled = true := by
  cases φ with
  | ready p => rfl
  | lingering p n en r =>
    simp only [cancel, Engine.step, if_true]
    exact Engine.isCanceled_conclude e x _ n en r
  | stopped p c => exact going.elim
  | broken message => exact going.elim

end Phase

namespace JobMoved

variable {s s' : Service} {j : Job} {stage : JobStage} {w : Workflow}

/-- A step of a job changes nothing of others. -/
theorem beside (moved : JobMoved s j stage s') (working : s.outage = none)
    (ids : s.engine.Keeps Run.id) (serves : j.stage.Serves s.engine j.id w) :
    Beside j.id j.token s s' := by
  cases moved with
  | begun => exact .refl ..
  | @went x φ φ' before going next =>
    -- Only a node that cancels its run reaches beyond the job, and it reaches its own token.
    split
    · refine ⟨fun _ _ => rfl, fun _ _ => rfl, fun other differ => ?_⟩
      simp only [Service.isCanceled, Service.cancel, List.contains_cons,
        beq_eq_false_iff_ne.2 differ, Bool.false_or]
    · exact .refl ..
  | broke => exact .refl ..
  | @saved x p c before =>
    rw [before] at serves
    have own := (ids.finish x p c).trans serves.1
    rw [Service.keep_of_working working]
    refine ⟨fun _ _ => rfl, fun other differ => ?_, fun _ _ => rfl⟩
    simp only [RecordStore.get?_settle, own, differ, if_false]
  | passed => exact .refl ..
  | @failed f before =>
    obtain ⟨records, written, -, others⟩ := Service.recordFailure_of_working working j.id f
    rw [written]
    exact ⟨fun _ _ => rfl, others, fun _ _ => rfl⟩
  | left => exact ⟨fun _ differ => Named.get?_erase_of_ne differ _, fun _ _ => rfl, fun _ _ => rfl⟩
  | rested => exact .refl ..

/-- A job that has left the table has no entry, unless somebody enters one. -/
theorem gone (moved : JobMoved s j stage s') (before : j.stage.Over → s.active.get? j.id = none)
    (past : stage.Over) : s'.active.get? j.id = none := by
  cases moved with
  | @begun work =>
    cases work with
    | host untilCanceled result =>
      simp only [Service.beginWork] at past
      split at past <;> exact past.elim
    | engine w request =>
      simp only [Service.beginWork] at past
      split at past <;> exact past.elim
  | went => exact past.elim
  | broke => exact past.elim
  | saved => exact past.elim
  | passed => exact past.elim
  | failed => exact past.elim
  | left => exact Named.get?_erase_self _ _
  | rested => exact before past

/-- A job that lingers goes on to do so. -/
theorem lingers (moved : JobMoved s j stage s') (lingers : s.Lingers j) :
    s'.Lingers { j with stage := stage } := by
  obtain ⟨x, p, n, en, r, before, free, uncanceled⟩ := lingers
  have steps : s.engine.step x (.lingering p n en r) = .lingering p n en r := by
    simp only [Engine.step, free, Bool.false_eq_true, if_false]
  cases moved with
  | @went x' φ φ' before' going next =>
    obtain ⟨rfl, rfl⟩ := JobStage.running.inj (before'.symm.trans before)
    simp only [Service.seen, uncanceled, Bool.false_eq_true, if_false, steps] at next
    subst next
    simp only [Phase.isCanceled, free, Bool.false_eq_true, if_false]
    exact ⟨x', p, n, en, r, rfl, free, uncanceled⟩
  | begun before' => exact JobStage.noConfusion (before'.symm.trans before)
  | broke before' => exact Phase.noConfusion (JobStage.running.inj (before'.symm.trans before)).2
  | saved before' => exact Phase.noConfusion (JobStage.running.inj (before'.symm.trans before)).2
  | passed before' => exact JobStage.noConfusion (before'.symm.trans before)
  | failed before' => exact JobStage.noConfusion (before'.symm.trans before)
  | left before' => exact JobStage.noConfusion (before'.symm.trans before)
  | rested past => exact (before ▸ past : (JobStage.running ..).Over).elim

/-- A run that may go on comes closer to its end; cancellations are seen at once. -/
theorem closer_of_went {x : Execution} {φ φ' : Phase} (going : φ.Going)
    (next : φ' = s.engine.step x (s.seen j.token φ)) (may : 0 < (s.seen j.token φ).toGo)
    (after : s' = if φ'.isCanceled then s.cancel j.token else s) :
    (s'.seen j.token φ').toGo < (s.seen j.token φ).toGo := by
  have canceled : s'.isCanceled j.token = true → φ'.isCanceled = true := by
    intro canceled
    by_contra free
    rw [after, if_neg free] at canceled
    rw [next, Service.seen, if_pos canceled] at free
    exact free (Phase.isCanceled_step s.engine x going)
  have same : s'.seen j.token φ' = φ' := by
    rw [Service.seen]
    split
    · rename_i seen
      exact Phase.cancel_of_isCanceled (canceled seen)
    · rfl
  rw [same, next]
  exact Engine.toGo_step_lt s.engine x may

/-- A run that may not take a step waits for a cancellation that has not come. -/
theorem lingers_of_spent {x : Execution} {φ : Phase} (before : j.stage = .running x φ)
    (going : φ.Going) (spent : (s.seen j.token φ).toGo = 0) : s.Lingers j := by
  cases canceled : s.isCanceled j.token with
  | false =>
    simp only [Service.seen, canceled, Bool.false_eq_true, if_false] at spent
    obtain ⟨p, n, en, r, rfl, free⟩ := Phase.lingering_of_toGo going spent
    exact ⟨x, p, n, en, r, before, free, canceled⟩
  | true =>
    simp only [Service.seen, canceled, if_true] at spent
    have going' : φ.cancel.Going := by cases φ <;> exact going
    obtain ⟨p, n, en, r, same, free⟩ := Phase.lingering_of_toGo going' spent
    cases φ with
    | lingering q =>
      obtain ⟨rfl, -⟩ := Phase.lingering.inj same
      simp only [Bool.true_eq_false] at free
    | ready q => exact Phase.noConfusion same
    | stopped => exact going.elim
    | broken => exact going.elim

/-- **A job lingers, or comes closer to its end.** -/
theorem closer (moved : JobMoved s j stage s') (serves : j.stage.Serves s.engine j.id w) :
    s'.Lingers { j with stage := stage } ∨ s'.jobToGo
      { j with stage := stage } ≤ s.jobToGo j - 1 := by
  have moved' := moved
  cases moved with
  | @begun work before =>
    rw [before] at serves
    cases work with
    | host untilCanceled result => exact serves.elim
    | engine w' request =>
      right
      simp only [Service.jobToGo, before, Service.beginWork]
      cases s.engine.prepare w' request with
      | ok prepared =>
        -- The run begins with what the engine allows, canceled or not.
        have begins :
            (s.seen j.token (s.engine.begin prepared.1 prepared.2 (s.isCanceled j.token))).toGo
            = s.engine.maxIterations + 1 := by
          rw [Service.seen]
          split <;> rfl
        simp only [begins]
        omega
      | error e => exact Nat.le_add_left 2 (s.engine.maxIterations + 2)
  | @went x φ φ' before going next =>
    by_cases may : 0 < (s.seen j.token φ).toGo
    · have closer := closer_of_went going next may rfl
      right
      simp only [Service.jobToGo, before]
      exact Nat.le_sub_one_of_lt (Nat.add_lt_add_right closer 3)
    · exact .inl (moved'.lingers (lingers_of_spent before going (Nat.eq_zero_of_not_pos may)))
  | broke before =>
    right
    simp only [Service.jobToGo, before]
    omega
  | saved before =>
    right
    simp only [Service.jobToGo, before]
    omega
  | passed before => simp only [Service.jobToGo, before, Nat.le_refl, or_true]
  | failed before => simp only [Service.jobToGo, before, Nat.le_refl, or_true]
  | left before => simp only [Service.jobToGo, before, Nat.le_refl, or_true]
  | rested past => exact .inr (Service.jobToGo_eq_zero.2 past ▸ Nat.zero_le _)

end JobMoved

namespace Traffic

variable {t : Traffic} {k : Nat} {w : Workflow} {r : Record} {j : Job}

/-- What a step of the job at a position makes of the service. -/
theorem service_move_job (job : t.service.jobs[k]? = some j) :
    (t.move (.job k)).service = (t.service.jobStep j).2.setStage k (t.service.jobStep j).1 := by
  simp only [Traffic.move, Service.stepJob, job]

/-- **A job that goes on alone gets to its end, or lingers.** It changes nothing of others, and at
its end it has left the table. -/
theorem Tracks.rests (tracks : t.Tracks k w r j) (working : t.service.outage = none)
    (ids : t.service.engine.Keeps Run.id) (entry : j.stage.Over → t.service.active.get? j.id = none)
    {n : Nat} (enough : t.service.Lingers j ∨ t.service.jobToGo j ≤ n) :
    ∃ j', (t.moves (List.replicate n (.job k))).Tracks k w r j' ∧ j'.id = j.id ∧
      j'.token = j.token ∧ Beside j.id j.token t.service
      (t.moves (List.replicate n (.job k))).service ∧
      (j'.stage.Over → (t.moves (List.replicate n (.job k))).service.active.get? j.id = none) ∧
      ((t.moves (List.replicate n (.job k))).service.Lingers j' ∨ j'.stage.Over) := by
  -- Each step brings the job closer to its end, or it lingers and no step does anything any more.
  induction n generalizing t j with
  | zero =>
    have rests := enough.imp_right fun none => Service.jobToGo_eq_zero.1 (Nat.le_zero.1 none)
    exact ⟨j, tracks, rfl, rfl, .refl .., entry, rests⟩
  | succ n ih =>
    obtain ⟨engine, -, outage⟩ := fixed_move t (.job k)
    have moved := t.service.jobMoved j
    have service := service_move_job tracks.job
    have own : ¬ t.Disturbs j.id k (.job k) := by
      rintro (⟨k', same, _⟩ | ⟨k', other, same, _⟩)
      · exact Move.noConfusion same
      · exact other (Move.job.inj same).symm
    obtain ⟨j₁, tracks₁, id₁, token₁⟩ := tracks.move working ids own
    obtain rfl : j₁ = { j with stage := (t.service.jobStep j).1 } :=
      Option.some.inj (tracks₁.job.symm.trans (stage_move tracks.job))
    have beside : Beside j.id j.token t.service (t.move (.job k)).service := by
      have beside := moved.beside working ids tracks.serves
      rw [service]
      exact ⟨beside.entries, beside.records, beside.tokens⟩
    have enough₁ : (t.move (.job k)).service.Lingers { j with stage := (t.service.jobStep j).1 } ∨
        (t.move (.job k)).service.jobToGo { j with stage := (t.service.jobStep j).1 } ≤ n := by
      rw [service]
      rcases enough with lingers | enough
      · exact .inl (moved.lingers lingers)
      · refine (moved.closer tracks.serves).imp_right fun closer => ?_
        exact Nat.le_trans closer (Nat.sub_le_of_le_add enough)
    have entry₁ : (t.service.jobStep j).1.Over → (t.move (.job k)).service.active.get? j.id
        = none := by
      rw [service]
      exact moved.gone entry
    obtain ⟨j₂, tracks₂, id₂, token₂, beside₂, entry₂, rests⟩ :=
      ih tracks₁ (outage.trans working) (engine ▸ ids) entry₁ enough₁
    exact ⟨j₂, tracks₂, id₂, token₂, beside.trans beside₂, entry₂, rests⟩

end Traffic

namespace Service

variable {s s' : Service} {c : Call} {id : String} {k : Nat}

theorem stepsJob_eq (s : Service) (k n : Nat) :
    s.stepsJob k n = (({ service := s } : Traffic).moves (List.replicate n (.job k))).service := by
  induction n generalizing s with
  | zero => rfl
  | succ n ih => exact ih (s.stepJob k)

/-- The job that was launched last is the one whose result is handed out. -/
theorem collect_of_last {j : Job} {result : Except Failure Run} (last : s.jobs.length = k + 1)
    (job : s.jobs[k]? = some j) (ended : j.stage = .ended result) :
    (s.collect j.id).1 = some result := by
  have found : s.lastJob? j.id = some k := by
    rw [lastJob?, last, List.range_succ, List.filter_append]
    simp [job]
  simp only [collect, found, job, Option.map_some, ended]

theorem length_stepsJob (s : Service) (k n : Nat) :
    (s.stepsJob k n).jobs.length = s.jobs.length := by
  induction n generalizing s with
  | zero => rfl
  | succ n ih =>
    rw [stepsJob, ih, stepJob]
    split
    · simp only [setStage, List.length_modify, jobs_jobStep]
    · rfl

/-- What is left of a run that was launched on a record, and whose job has a result: the run has
left the table; a run that has ended is on record unless it is not to be kept; a failure is on
record, which has kept its data. -/
structure Agrees (s : Service) (id : String) (r : Record) (result : Except Failure Run) : Prop where
  entry : s.active.get? id = none
  kept : ∀ run, result = .ok run →
    s.records.get? id = if run.needsDelete then none else some (.ofRun run)
  failed : ∀ message, result = .error (.error message) →
    ∃ r', s.records.get? id = some r' ∧ r'.status = .failed ∧ r'.state = r.state
  crashed : ∀ message, result = .error (.crash message) →
    ∃ r', s.records.get? id = some r' ∧ r'.status = .crashed ∧ r'.state = r.state

theorem agrees_of_after {r : Record} {now : Time.Instant} {result : Except Failure Run}
    (entry : s.active.get? id = none) (record : s.records.get? id = r.after now result) :
    s.Agrees id r result where
  entry := entry
  kept run ok := by rw [record, ok, Record.after]
  failed message error := ⟨r.withStatus now .failed, by rw [record, error]; rfl, rfl, rfl⟩
  crashed message crash := ⟨r.withStatus now .crashed, by rw [record, crash]; rfl, rfl, rfl⟩

/-- The job that an operation has launched is the last one, and it has the record to itself. -/
theorem tracks_of_perform (working : s.outage = none) (keyed : s.records.Keyed) (begins : c.Begins)
    (done : s.perform c = (.ok id, s')) : ∃ r w request, s.Opened id c r ∧ Beside id s.tokens s s' ∧
      s'.jobs.length = s.jobs.length + 1 ∧ s'.engine = s.engine ∧ s'.outage = none ∧
      Traffic.Tracks { service := s' } s.jobs.length w r
        ⟨id, s.tokens, .launched (.engine w request)⟩ := by
  obtain ⟨r, created, mode, w, request, opened, own, rfl⟩ := perform_ok working keyed begins done
  refine ⟨r, w, request, opened, ⟨fun other differ => ?_, fun other differ => ?_, fun _ _ => rfl⟩,
    ?_, rfl, working, ?_, ⟨rfl, own⟩, ?_⟩
  · exact Named.get?_insert_of_ne differ _ _
  · exact Named.get?_insert_of_ne differ _ _
  · simp only [started, enter, List.length_append, List.length_singleton]
  · simp only [started, enter, List.getElem?_concat_length]
  · exact Named.get?_insert_self _ _ _

/-- **Record, table and result agree.** An operation that succeeds has launched the last job, on a
record that it has opened and, if it resumes a run, has left its data. If nothing else goes on, the
job comes to its end, unless a node waits for a cancellation that has not come; what it hands out
then is what is left of it, and nothing else has changed. -/
theorem settled_agrees (working : s.outage = none) (keyed : s.records.Keyed)
    (ids : s.engine.Keeps Run.id) (begins : c.Begins) (done : s.perform c = (.ok id, s')) :
    ∃ r, s'.records.get? id = some r ∧
      (∀ before, c = .resume id → s.records.get? id = some before → r.state = before.state) ∧
      Beside id s.tokens s (s'.runJob s.jobs.length) ∧
      ((∃ j, (s'.runJob s.jobs.length).jobs[s.jobs.length]? = some j ∧
        (s'.runJob s.jobs.length).Lingers j) ∨
        ∃ result, ((s'.runJob s.jobs.length).collect id).1 = some result ∧
          (s'.runJob s.jobs.length).Agrees id r result) := by
  obtain ⟨r, w, request, opened, beside, length, engine, outage, tracks⟩ :=
    tracks_of_perform working keyed begins done
  have resumed : ∀ before, c = .resume id → s.records.get? id = some before →
      r.state = before.state := by
    intro before resumes found
    cases opened with
    | new first => exact absurd resumes (first id)
    | again found' =>
      obtain rfl := Option.some.inj (found.symm.trans found')
      rfl
  -- The job is followed from its launch on: it needs no more steps than it is given.
  obtain ⟨j, tracks', own, token, beside', entry, rests⟩ :=
    tracks.rests outage (engine ▸ ids) (fun past => past.elim)
    (.inr (s'.jobToGo_le_jobBound _))
  have runs : s'.runJob s.jobs.length
      = s'.stepsJob s.jobs.length (s'.jobBound (.launched (.engine w request))) := by
    have job : s'.jobs[s.jobs.length]? = _ := tracks.job
    rw [runJob, job]
  obtain ⟨job, -, record⟩ := tracks'
  rw [← stepsJob_eq, ← runs] at beside' entry rests job record
  refine ⟨r, tracks.record, resumed, beside.trans beside', ?_⟩
  refine rests.imp (fun lingers => ⟨j, job, lingers⟩) fun past => ?_
  have last : (s'.runJob s.jobs.length).jobs.length = s.jobs.length + 1 := by
    rw [runs, length_stepsJob, length]
  have own : j.id = id := own
  -- The job has been launched last, so the result that is handed out is its own, and nobody has
  -- fetched it.
  rcases past.ended with ⟨result, stage⟩ | stage
  · rw [stage, own] at record
    exact ⟨result, own ▸ collect_of_last last job stage, agrees_of_after (entry past) record⟩
  · exact (stage ▸ record : JobStage.collected.Tells _ _ _).elim

end Service

/-- The run that pauses on the detour is on record as it is handed out, and has left the table. -/
theorem paused_agrees :
    ∃ s', Detour.service.perform (.start Detour.workflow .manual (some "Start") none)
      = (.ok "run", s') ∧ ∃ run, ((s'.runJob 0).collect "run").1 = some (.ok run) ∧
        run.status = .waiting ∧
    (s'.runJob 0).active.get? "run" = none ∧ (s'.runJob 0).records.get? "run"
      = some (.ofRun run) := by
  have done : Detour.service.perform (.start Detour.workflow .manual (some "Start") none) = _ :=
    Service.perform_create rfl _ _ _
  refine ⟨_, done, ?_⟩
  obtain ⟨r, -, -, -, settled⟩ :=
    Service.settled_agrees rfl Detour.begun.keyed (Detour.keeps _) (.start ..) done
  rcases settled with ⟨j, job, x, p, n, en, r, lingers, -⟩ | ⟨result, collected, agrees⟩
  · obtain rfl := Option.some.inj (Eq.trans rfl job)
    simp only [reduceCtorEq] at lingers
  · obtain rfl := Option.some.inj (Eq.trans rfl collected)
    exact ⟨_, rfl, rfl, agrees.entry, agrees.kept _ rfl⟩

end Conveyor
