/-
What moves do to the records.

Two kinds of moves change the record of an id. An operation opens it: it creates the record of a new
run, or marks that of a waiting one as running again. And a job writes it, once: when its run has
ended the record is saved or removed, and when its work has failed the record gets the status of the
failure. `RecordMoved` lists what becomes of the record, and `record_move` says that every move is
one of these.

As with the table, the steps are looked at once: `JobMoved` is what one step of a job does, and
`jobMoved` that it does nothing else. The rest is a matter of looking at the cases.

Hooks are shown a run that has ended before it is saved, and may change it. What a theorem needs of
them is said by `Engine.Keeps`.
-/
import Conveyor.Proofs.Service.Reach

set_option autoImplicit false

namespace Conveyor

/-! ## Records under their ids -/

/-- A record that is given a status; one that ends the run also tells when, unless that is known. -/
def Record.withStatus (now : Time.Instant) (status : RunStatus) (r : Record) : Record :=
  { r with
    status := status
    stoppedAt := if status.isTerminal then some (r.stoppedAt.getD now) else r.stoppedAt }

namespace RecordStore

variable {s s' : RecordStore} {id : String}

/-- Every record is kept under its own id. -/
def Keyed (s : RecordStore) : Prop := ∀ id record, s.get? id = some record → record.id = id

/-- A change of a record that is there changes nothing else. -/
theorem get?_modify {f : Record → Record} (done : s.modify id f = .ok s') :
    ∃ r, s.get? id = some r ∧ s' = s.insert id (f r) := by
  rw [RecordStore.modify] at done
  split at done
  · rename_i r found
    exact ⟨r, found, (Except.ok.inj done).symm⟩
  · simp only [reduceCtorEq] at done

/-- What is kept of a run that has ended. -/
theorem get?_settle (s : RecordStore) (run : Run) (id : String) :
    (s.settle run).get? id =
      if id = run.id then (if run.needsDelete then none else some (Record.ofRun run))
      else s.get? id := by
  rw [RecordStore.settle]
  split
  · by_cases same : id = run.id
    · rw [if_pos same, same, Named.get?_erase_self]
    · rw [if_neg same, Named.get?_erase_of_ne same]
  · rw [RecordStore.save, Named.get?_insert]
    rfl

end RecordStore

namespace Service

variable {s s' : Service} {id : String}

/-- A store that is in order does what it is asked for. -/
theorem withRecords_of_working (working : s.outage = none)
    (f : RecordStore → Except StoreError RecordStore) :
    s.withRecords f = (f s.records).map fun records => { s with records := records } := by
  rw [withRecords, working]

theorem createRecord_of_working (working : s.outage = none) (workflowId : String) (mode : RunMode) :
    s.createRecord workflowId mode = .ok (s.recordId (s.created + 1),
      { s with
        records := s.records.save
          { id := s.recordId (s.created + 1), workflowId := workflowId,
            mode := mode, status := .running, startedAt := s.engine.now }
        created := s.created + 1 }) := by
  rw [createRecord, withRecords_of_working working]
  rfl

theorem reopenRecord_ok (working : s.outage = none) (done : s.reopenRecord id = .ok s') :
    ∃ r, s.records.get? id = some r ∧
      s' = { s with
        records := s.records.insert id { r with status := .running, waitTill := none } } := by
  rw [reopenRecord, withRecords_of_working working] at done
  cases marked : s.records.markRunning id with
  | error e => simp only [marked, Except.map, reduceCtorEq] at done
  | ok records =>
    obtain ⟨r, found, rfl⟩ := RecordStore.get?_modify marked
    simp only [marked, Except.map, Except.ok.injEq] at done
    exact ⟨r, found, done.symm⟩

/-- A record that is there can be marked as running again. -/
theorem reopenRecord_of_some (working : s.outage = none) {r : Record}
    (found : s.records.get? id = some r) :
    s.reopenRecord id
      = .ok { s with
        records := s.records.insert id { r with status := .running, waitTill := none } } := by
  rw [reopenRecord, withRecords_of_working working, RecordStore.markRunning,
    RecordStore.modify, found]
  rfl

theorem keep_of_working (working : s.outage = none) (run : Run) :
    s.keep run = { s with records := s.records.settle run } := by
  rw [keep, tryRecords, withRecords_of_working working]
  rfl

/-- A failure is written into the record of the run, if it is there. -/
theorem recordFailure_of_working (working : s.outage = none) (id : String) (f : Failure) :
    ∃ records, s.recordFailure id f = { s with records := records } ∧
      records.get? id = (s.records.get? id).map (Record.withStatus s.engine.now f.status) ∧
      ∀ other, other ≠ id → records.get? other = s.records.get? other := by
  have asked : s.records.setStatus s.engine.now id f.status
      = s.records.modify id (Record.withStatus s.engine.now f.status) := rfl
  rw [recordFailure, tryRecords, withRecords_of_working working, asked]
  cases changed : s.records.modify id (Record.withStatus s.engine.now f.status) with
  | error e =>
    refine ⟨s.records, rfl, ?_, fun _ _ => rfl⟩
    cases found : s.records.get? id with
    | none => rfl
    | some r =>
      rw [RecordStore.modify, found] at changed
      simp only [reduceCtorEq] at changed
  | ok records =>
    refine ⟨records, rfl, ?_⟩
    obtain ⟨r, found, rfl⟩ := RecordStore.get?_modify changed
    rw [found, Named.get?_insert_self]
    exact ⟨rfl, fun other differ => Named.get?_insert_of_ne differ _ _⟩

end Service

/-! ## Runs that have ended -/

namespace Engine

variable {e : Engine} {w : Workflow} {r : Request} {x : Execution} {s : RunState}

/-- No hook changes what `f` tells of a run that has ended. -/
def Keeps {α : Type} (e : Engine) (f : Run → α) : Prop :=
  ∀ k ∈ e.hooks, ∀ w run, f (k.runEnds w run).2 = f run

theorem Keeps.finish {α : Type} {f : Run → α} (keeps : e.Keeps f) (x : Execution) (p : Pass)
    (c : Bool) :
    f (e.finish x p c).1 = f (e.runOf x p.state c) := by
  refine Eq.symm
    (callHooks_rel (σ := Run) (R := fun run run' => f run = f run') (fun _ => rfl) Eq.trans _ 0
      (fun action hf run => ?_) _)
  obtain ⟨k, hk, rfl⟩ := List.mem_map.1 hf
  exact (keeps k hk x.graph.workflow run).symm

/-- A run that has ended is not running. -/
theorem Keeps.not_running (keeps : e.Keeps Run.status) (x : Execution) (p : Pass) (c : Bool) :
    (e.finish x p c).1.status ≠ .running := by
  rw [keeps.finish, runOf]
  simp only [RunStatus.ofOutcome]
  split
  · simp only [ne_eq, reduceCtorEq, not_false_eq_true]
  · split
    · simp only [ne_eq, reduceCtorEq, not_false_eq_true]
    · split <;> simp only [Bool.false_eq_true, if_false, ne_eq, reduceCtorEq, not_false_eq_true]

end Engine

/-! ## The steps of a job -/

/-- A run as its job sees it: it is canceled if its token is. -/
def Service.seen (s : Service) (token : Nat) (φ : Phase) : Phase :=
  if s.isCanceled token then φ.cancel else φ

/-- What one step of a job does. -/
inductive JobMoved (s : Service) (j : Job) : JobStage → Service → Prop
  | begun {work : Work} (before : j.stage = .launched work) :
  JobMoved s j (s.beginWork j.token work) s
  /-- The run goes on; its node may have canceled it. -/
  | went {x : Execution} {φ φ' : Phase} (before : j.stage = .running x φ) (going : φ.Going)
      (next : φ' = s.engine.step x (s.seen j.token φ)) :
      JobMoved s j (.running x φ') (if φ'.isCanceled then s.cancel j.token else s)
  | broke {x : Execution} {message : String} (before : j.stage = .running x (.broken message)) :
      JobMoved s j (.returned (.error (.crash message))) s
  /-- The run has ended, and is kept or removed. -/
  | saved {x : Execution} {p : Pass} {c : Bool} (before : j.stage = .running x (.stopped p c)) :
      JobMoved s j (.returned (.ok (s.engine.finish x p c).1)) (s.keep (s.engine.finish x p c).1)
  | passed {run : Run} (before : j.stage = .returned (.ok run)) :
    JobMoved s j (.recorded (.ok run)) s
  | failed {f : Failure} (before : j.stage = .returned (.error f)) :
      JobMoved s j (.recorded (.error f)) (s.recordFailure j.id f)
  | left {result : Except Failure Run} (before : j.stage = .recorded result) :
      JobMoved s j (.ended result) (s.leave j.id)
  | rested (past : j.stage.Over) : JobMoved s j j.stage s

namespace Service

/-- A run under way takes a step. -/
theorem runStep_going {s : Service} {x : Execution} {φ : Phase} (going : φ.Going) (token : Nat) :
    s.runStep token x φ = (.running x (s.engine.step x φ),
      if (s.engine.step x φ).isCanceled then s.cancel token else s) := by
  cases φ with
  | ready p => rfl
  | lingering p n en r => rfl
  | stopped p c => exact going.elim
  | broken message => exact going.elim

/-- **Every step of a job is one of these.** -/
theorem jobMoved (s : Service) (j : Job) : JobMoved s j (s.jobStep j).1 (s.jobStep j).2 := by
  cases before : j.stage with
  | launched work =>
    rw [jobStep, before]
    exact .begun before
  | running x φ =>
    -- A run that has come to its end cannot be canceled any more.
    have seen : φ.Going → (if s.isCanceled j.token then φ.cancel else φ).Going := by
      intro going
      split
      · cases φ <;> exact going
      · exact going
    simp only [jobStep, before]
    cases φ with
    | ready p =>
      rw [runStep_going (seen trivial)]
      exact .went before trivial rfl
    | lingering p n en r =>
      rw [runStep_going (seen trivial)]
      exact .went before trivial rfl
    | stopped p c =>
      have same : (if s.isCanceled j.token then (Phase.stopped p c).cancel else .stopped p c)
          = .stopped p c := by
        split <;> rfl
      rw [same]
      exact .saved before
    | broken message =>
      have same : (if s.isCanceled j.token then (Phase.broken message).cancel else .broken message)
          = .broken message := by
        split <;> rfl
      rw [same]
      exact .broke before
  | returned result =>
    cases result with
    | ok run =>
      rw [jobStep, before]
      exact .passed before
    | error f =>
      rw [jobStep, before]
      exact .failed before
  | recorded result =>
    rw [jobStep, before]
    exact .left before
  | ended result =>
    have rested := JobMoved.rested (s := s) (j := j) (before ▸ trivial)
    simp only [jobStep, before] at rested ⊢
    exact rested
  | collected =>
    have rested := JobMoved.rested (s := s) (j := j) (before ▸ trivial)
    simp only [jobStep, before] at rested ⊢
    exact rested

/-- What a job does, it does not do to the list of jobs. -/
theorem jobs_jobStep (s : Service) (j : Job) : (s.jobStep j).2.jobs = s.jobs := by
  have moved := s.jobMoved j
  generalize (s.jobStep j).1 = stage, (s.jobStep j).2 = s' at moved
  cases moved with
  | begun => rfl
  | went => split <;> rfl
  | broke => rfl
  | saved =>
    obtain ⟨records, kept⟩ := s.tryRecords_eq _
    rw [keep, kept]
  | passed => rfl
  | failed =>
    obtain ⟨records, kept⟩ := s.tryRecords_eq _
    rw [recordFailure, kept]
  | left => rfl
  | rested => rfl

end Service

namespace Traffic

variable {t : Traffic} {m : Move} {ms : List Move} {id : String} {k : Nat} {j : Job} {c : Call}

/-! ## What happens on the way -/

/-- One of some moves is of a kind; whether it is may depend on what has come before it. -/
def Happens (t : Traffic) (P : Traffic → Move → Prop) (ms : List Move) : Prop :=
  ∃ a m b, ms = a ++ m :: b ∧ P (t.moves a) m

theorem moves_concat (t : Traffic) (ms : List Move) (m : Move) :
    t.moves (ms ++ [m]) = (t.moves ms).move m := by
  rw [moves, List.foldl_append]
  rfl

theorem moves_append (t : Traffic) (a b : List Move) : t.moves (a ++ b) = (t.moves a).moves b :=
  List.foldl_append

theorem never_iff {P : Traffic → Move → Prop} : t.Never P ms ↔ ¬ t.Happens P ms := by
  constructor
  · rintro never ⟨a, m, b, split, happens⟩
    exact never a m b split happens
  · intro none a m b split happens
    exact none ⟨a, m, b, split, happens⟩

/-- What never happens, whatever has come before, does not happen on the way. -/
theorem never_of_forall {P : Traffic → Move → Prop} (none : ∀ m ∈ ms, ∀ t, ¬ P t m) :
    t.Never P ms := by
  rintro a m b rfl
  exact none m (List.mem_append_right _ List.mem_cons_self) _

theorem not_happens_nil {P : Traffic → Move → Prop} : ¬ t.Happens P [] := never_iff.1 never_nil

theorem happens_cons {P : Traffic → Move → Prop} :
    t.Happens P (m :: ms) ↔ P t m ∨ (t.move m).Happens P ms := by
  rw [← not_iff_not, not_or, ← never_iff, ← never_iff, never_cons]

theorem happens_append {P : Traffic → Move → Prop} {a b : List Move} :
    t.Happens P (a ++ b) ↔ t.Happens P a ∨ (t.moves a).Happens P b := by
  induction a generalizing t with
  | nil => exact (or_iff_right not_happens_nil).symm
  | cons m a ih => rw [List.cons_append, happens_cons, happens_cons, ih, or_assoc, moves_cons]

theorem happens_concat {P : Traffic → Move → Prop} :
    t.Happens P (ms ++ [m]) ↔ t.Happens P ms ∨ P (t.moves ms) m := by
  rw [happens_append, happens_cons, or_iff_left not_happens_nil]

theorem never_append {P : Traffic → Move → Prop} {a b : List Move} :
    t.Never P (a ++ b) ↔ t.Never P a ∧ (t.moves a).Never P b := by
  rw [never_iff, never_iff, never_iff, happens_append, not_or]

theorem never_concat {P : Traffic → Move → Prop} :
    t.Never P (ms ++ [m]) ↔ t.Never P ms ∧ ¬ P (t.moves ms) m := by
  rw [never_iff, never_iff, happens_concat, not_or]

/-! ## What a move leaves alone -/

/-- The engine, the workflows and the order of the store are the same after every move. -/
theorem fixed_move (t : Traffic) (m : Move) : (t.move m).service.engine = t.service.engine ∧
    (t.move m).service.workflows = t.service.workflows ∧
      (t.move m).service.outage = t.service.outage := by
  have moved := moved_move t m
  generalize (t.move m).service = s' at moved
  cases moved with
  | aside => exact ⟨rfl, rfl, rfl⟩
  | entered => exact ⟨rfl, rfl, rfl⟩
  | launched => exact ⟨rfl, rfl, rfl⟩
  | worked => exact ⟨rfl, rfl, rfl⟩
  | left => exact ⟨rfl, rfl, rfl⟩
  | @stopped id move =>
    obtain ⟨active, canceled, stops, -, -⟩ := t.service.stop_eq id
    rw [stops]
    exact ⟨rfl, rfl, rfl⟩

theorem engine_moves (t : Traffic) (ms : List Move) :
    (t.moves ms).service.engine = t.service.engine := by
  induction ms generalizing t with
  | nil => rfl
  | cons m ms ih => exact (ih (t.move m)).trans (fixed_move t m).1

/-- A step of an operation takes it to its next stage. -/
theorem call_move (call : t.calls[k]? = some c) :
    (t.move (.call k)).calls[k]? = some (c.step t.service).1 ∧ (t.move (.call k)).service
    = (c.step t.service).2 := by
  have inside := (List.getElem?_eq_some_iff.1 call).1
  simp only [move, call, List.getElem?_set_self inside, and_self]

/-- An operation stays where it is until it takes a step itself. -/
theorem call_of_ne (call : t.calls[k]? = some c) (other : m ≠ .call k) :
    (t.move m).calls[k]? = some c := by
  cases m with
  | begin c' =>
    exact (List.getElem?_append_left (List.getElem?_eq_some_iff.1 call).1).trans call
  | call k' =>
    have differ : k' ≠ k := fun same => other (congrArg Move.call same)
    simp only [move]
    split
    · exact (List.getElem?_set_ne differ).trans call
    · exact call
  | job k' => exact call
  | stop id => exact call

/-- An operation that is there after a move was there before it, has just begun, or has taken a
step. -/
theorem call_of_move {c' : Call} (call : (t.move m).calls[k]? = some c') :
    t.calls[k]? = some c' ∨ m = .begin c' ∨ m = .call k ∧ ∃ c, t.calls[k]? = some c ∧
    c' = (c.step t.service).1 := by
  -- Beginning adds an operation at the end of the list, and a step changes one of them in its
  -- place.
  cases m with
  | begin c =>
    rcases Nat.lt_trichotomy k t.calls.length with inside | last | past
    · exact .inl ((List.getElem?_append_left inside).symm.trans call)
    · rw [last] at call
      obtain rfl := Option.some.inj (List.getElem?_concat_length.symm.trans call)
      exact .inr (.inl rfl)
    · refine absurd (List.getElem?_eq_some_iff.1 call).1 (Nat.not_lt.2 ?_)
      simp only [move, List.length_append, List.length_singleton]
      omega
  | call k' =>
    by_cases same : k' = k
    · subst same
      cases there : t.calls[k']? with
      | some c =>
        obtain rfl := Option.some.inj ((call_move there).1.symm.trans call)
        exact .inr (.inr ⟨rfl, c, rfl, rfl⟩)
      | none =>
        simp only [move, there, reduceCtorEq] at call
    · cases there : t.calls[k]? with
      | some c =>
        have stays := call_of_ne there (m := .call k') fun here => same (Move.call.inj here)
        exact .inl (stays.symm.trans call)
      -- A step leaves the list as long as it is, so nothing appears where nothing was.
      | none =>
        have length : (t.move (.call k')).calls.length = t.calls.length := by
          simp only [move]
          split
          · exact List.length_set
          · rfl
        have inside := (List.getElem?_eq_some_iff.1 call).1
        exact absurd (length ▸ inside) (Nat.not_lt.2 (List.getElem?_eq_none_iff.1 there))
  | job k' => exact .inl call
  | stop id => exact .inl call

/-- A job that takes a step has the stage that it comes to. -/
theorem stage_move (job : t.service.jobs[k]? = some j) :
    (t.move (.job k)).service.jobs[k]? = some { j with stage := (t.service.jobStep j).1 } := by
  simp only [move, Service.stepJob, job, Service.setStage, Service.jobs_jobStep,
    List.getElem?_modify_eq]
  rfl

/-- A job stays where it is until it takes a step itself. -/
theorem stage_of_ne (job : t.service.jobs[k]? = some j) (other : m ≠ .job k) :
    (t.move m).service.jobs[k]? = some j := by
  have moved := jobs_move t m
  generalize (t.move m).service.jobs = jobs at moved
  cases moved with
  | kept => exact job
  | launched => exact (List.getElem?_append_left (List.getElem?_eq_some_iff.1 job).1).trans job
  | @worked k' j' stage move job' past =>
    have differ : k' ≠ k := fun same => other (move.trans (congrArg Move.job same))
    rw [List.getElem?_modify, job]
    simp only [differ, if_false, Option.map_eq_map, Option.map_some]

/-! ## What becomes of a record -/

/-- The next step of an operation marks the record of an id as running again. -/
def Reopens (t : Traffic) (id : String) (k : Nat) : Prop :=
  (∃ record w, t.calls[k]? = some (.reopen id record w)) ∧ (t.service.records.get? id).isSome

/-- The next step of an operation opens the record of an id: it creates it, or marks it as running
again. -/
def Opens (t : Traffic) (id : String) (k : Nat) : Prop :=
  (∃ w mode request, t.calls[k]? = some (.create w mode request) ∧
      t.service.recordId (t.service.created + 1) = id) ∨ t.Reopens id k

/-- The next step of a job writes the record of an id: its run has ended, or its work has failed. -/
def Writes (t : Traffic) (id : String) (k : Nat) : Prop :=
  ∃ j, t.service.jobs[k]? = some j ∧
    ((∃ x p c, j.stage = .running x (.stopped p c) ∧ (t.service.engine.finish x p c).1.id = id) ∨
      ∃ f, j.stage = .returned (.error f) ∧ j.id = id)

/-- What becomes of the record of an id in a move. -/
inductive RecordMoved (t : Traffic) (m : Move) (id : String) : Option Record → Prop
  | kept (shut : ∀ k, m = .call k → ¬ t.Opens id k)
  (unwritten : ∀ k, m = .job k → ¬ t.Writes id k) :
      RecordMoved t m id (t.service.records.get? id)
  | opened {k : Nat} {record : Record} (move : m = .call k) (opens : t.Opens id k)
      (status : record.status = .running) (own : t.service.records.Keyed → record.id = id) :
      RecordMoved t m id (some record)
  | saved {k : Nat} {j : Job} {x : Execution} {p : Pass} {c : Bool} (move : m = .job k)
      (job : t.service.jobs[k]? = some j) (stage : j.stage = .running x (.stopped p c))
      (same : (t.service.engine.finish x p c).1.id = id) : RecordMoved t m id
        (if (t.service.engine.finish x p c).1.needsDelete then none
          else some (Record.ofRun (t.service.engine.finish x p c).1))
  | failed {k : Nat} {j : Job} {f : Failure} (move : m = .job k) (job : t.service.jobs[k]? = some j)
      (stage : j.stage = .returned (.error f)) (same : j.id = id) : RecordMoved t m id
        ((t.service.records.get? id).map (Record.withStatus t.service.engine.now f.status))

/-- Only an operation that creates a record, or marks one that is there, opens it. -/
theorem opens_iff (call : t.calls[k]? = some c) : t.Opens id k ↔
    (∃ w mode request, c = .create w mode request ∧ t.service.recordId
      (t.service.created + 1) = id) ∨ (∃ record w, c = .reopen id record w) ∧
      (t.service.records.get? id).isSome := by
  simp only [Opens, Reopens, call, Option.some.injEq]

/-- Only a job whose run has ended, or whose work has failed, writes a record. -/
theorem writes_iff (job : t.service.jobs[k]? = some j) : t.Writes id k ↔
    (∃ x p c, j.stage = .running x (.stopped p c) ∧ (t.service.engine.finish x p c).1.id = id) ∨
      ∃ f, j.stage = .returned (.error f) ∧ j.id = id := by
  simp only [Writes, job, Option.some.injEq, exists_eq_left']

theorem RecordMoved.shut (shut : ¬ t.Opens id k) :
    RecordMoved t (.call k) id (t.service.records.get? id) :=
  .kept (fun _ same => Move.call.inj same ▸ shut) fun _ same => Move.noConfusion same

theorem RecordMoved.unwritten (unwritten : ¬ t.Writes id k) :
    RecordMoved t (.job k) id (t.service.records.get? id) :=
  .kept (fun _ same => Move.noConfusion same) fun _ same => Move.job.inj same ▸ unwritten

theorem record_call (working : t.service.outage = none) (call : t.calls[k]? = some c)
    (id : String) :
    RecordMoved t (.call k) id ((c.step t.service).2.records.get? id) := by
  -- Creating and marking write one record each; all others, and all records in the other steps,
  -- stay as they are.
  cases c with
  | find workflowId mode items =>
    simp only [Call.step]
    split <;> exact .shut (by simp [opens_iff call])
  | create w mode request =>
    simp only [Call.step, Service.createRecord_of_working working]
    rw [RecordStore.save, Named.get?_insert]
    split
    · rename_i same
      exact .opened rfl (.inl ⟨w, mode, request, call, same.symm⟩) rfl fun _ => same.symm
    · rename_i differ
      exact .shut (by simp [opens_iff call, Ne.symm differ])
  | read other =>
    simp only [Call.step]
    split
    · exact .shut (by simp [opens_iff call])
    · exact .shut (by simp [opens_iff call])
    · split <;> exact .shut (by simp [opens_iff call])
  | load other record =>
    simp only [Call.step]
    split <;> exact .shut (by simp [opens_iff call])
  | reopen other record w =>
    simp only [Call.step]
    split
    · rename_i done
      obtain ⟨r, found, rfl⟩ := Service.reopenRecord_ok working done
      simp only [Named.get?_insert]
      split
      · rename_i same
        subst same
        exact .opened rfl (.inr ⟨⟨record, w, call⟩, found ▸ rfl⟩) rfl fun keyed => keyed id r found
      · rename_i differ
        exact .shut (by simp [opens_iff call, Ne.symm differ])
    · -- It cannot be marked, so it is not there.
      rename_i e refused
      refine .shut fun opens => ?_
      rcases (opens_iff call).1 opens with ⟨_, _, _, here, _⟩ | ⟨⟨_, _, here⟩, there⟩
      · exact Call.noConfusion here
      · obtain ⟨rfl, _, _⟩ := Call.reopen.inj here
        obtain ⟨r, found⟩ := Option.isSome_iff_exists.1 there
        rw [Service.reopenRecord_of_some working found] at refused
        simp only [reduceCtorEq] at refused
  | enter other mode w request => exact .shut (by simp [opens_iff call])
  | launch other w request =>
    simp only [Call.step]
    split
    · rename_i done
      obtain ⟨entry, found, rfl⟩ := Service.launch_ok done
      exact .shut (by simp [opens_iff call])
    · exact .shut (by simp [opens_iff call])
  | finished result => exact .shut (by simp [opens_iff call])

theorem record_job (working : t.service.outage = none) (job : t.service.jobs[k]? = some j)
    (id : String) :
    RecordMoved t (.job k) id ((t.service.jobStep j).2.records.get? id) := by
  -- The end of the run and a failure of the work write the record of the job; the other steps write
  -- none.
  have moved := t.service.jobMoved j
  generalize (t.service.jobStep j).1 = stage, (t.service.jobStep j).2 = s' at moved
  cases moved with
  | begun before => exact .unwritten (by simp [writes_iff job, before])
  | @went x φ φ' before going next =>
    have same : (if φ'.isCanceled then t.service.cancel j.token else t.service).records
        = t.service.records := by
      split <;> rfl
    have goes : ∀ p c, φ ≠ .stopped p c := by
      rintro p c rfl
      exact going
    rw [same]
    exact .unwritten (by simp [writes_iff job, before, goes])
  | broke before => exact .unwritten (by simp [writes_iff job, before])
  | @saved x p c before =>
    rw [Service.keep_of_working working]
    simp only [RecordStore.get?_settle]
    split
    · rename_i same
      exact .saved rfl job before same.symm
    · rename_i differ
      refine .unwritten fun writes => ?_
      rcases (writes_iff job).1 writes with ⟨x', p', c', stage, same⟩ | ⟨f, stage, _⟩
      · obtain ⟨rfl, phase⟩ := JobStage.running.inj (before.symm.trans stage)
        obtain ⟨rfl, rfl⟩ := Phase.stopped.inj phase
        exact differ same.symm
      · exact JobStage.noConfusion (before.symm.trans stage)
  | passed before => exact .unwritten (by simp [writes_iff job, before])
  | @failed f before =>
    obtain ⟨records, written, own, others⟩ := Service.recordFailure_of_working working j.id f
    rw [written]
    by_cases same : id = j.id
    · subst same
      simp only [own]
      exact .failed rfl job before rfl
    · simp only [others id same]
      exact .unwritten (by simp [writes_iff job, before, Ne.symm same])
  | left before => exact .unwritten (by simp [writes_iff job, before])
  | rested past =>
    refine .unwritten fun writes => ?_
    rcases (writes_iff job).1 writes with ⟨_, _, _, stage, _⟩ | ⟨_, stage, _⟩
    · rw [stage] at past
      exact past
    · rw [stage] at past
      exact past

/-- **A record stays as it is until it is opened or written.** -/
theorem record_move (working : t.service.outage = none) (m : Move) (id : String) :
    RecordMoved t m id ((t.move m).service.records.get? id) := by
  -- Only steps of operations and of jobs write records, and they need somebody to take them.
  cases m with
  | begin c => exact .kept (fun k same => Move.noConfusion same) fun k same => Move.noConfusion same
  | call k =>
    cases call : t.calls[k]? with
    | some c =>
      rw [(call_move call).2]
      exact record_call working call id
    | none =>
      have same : t.move (.call k) = t := by simp only [move, call]
      rw [same]
      refine .shut ?_
      rintro (⟨_, _, _, found, _⟩ | ⟨⟨_, _, found⟩, _⟩)
        <;> exact Option.some_ne_none _ (found.symm.trans call)
  | job k =>
    cases job : t.service.jobs[k]? with
    | some j =>
      simp only [move, Service.stepJob, job]
      exact record_job working job id
    | none =>
      simp only [move, Service.stepJob, job]
      refine .unwritten ?_
      rintro ⟨j, found, _⟩
      exact Option.some_ne_none _ (found.symm.trans job)
  | stop other =>
    obtain ⟨active, canceled, stops, -, -⟩ := t.service.stop_eq other
    simp only [move, stops]
    exact .kept (fun k same => Move.noConfusion same) fun k same => Move.noConfusion same

/-- A record that was opened says that its run is running. -/
theorem running_of_opens (working : t.service.outage = none) (opens : t.Opens id k) :
    ∃ r, (t.move (.call k)).service.records.get? id = some r ∧ r.status = .running := by
  have moved := record_move working (.call k) id
  generalize (t.move (.call k)).service.records.get? id = found at moved
  cases moved with
  | kept shut => exact absurd opens (shut k rfl)
  | opened move opens status => exact ⟨_, rfl, status⟩
  | saved move => exact Move.noConfusion move
  | failed move => exact Move.noConfusion move

/-- An operation that has marked a record is about to enter the run that it resumes. -/
theorem enters_of_reopens (working : t.service.outage = none) (reopens : t.Reopens id k) :
    ∃ mode w run, (t.move (.call k)).calls[k]? = some (.enter id mode w (.resume run)) := by
  obtain ⟨⟨record, w, call⟩, there⟩ := reopens
  obtain ⟨r, found⟩ := Option.isSome_iff_exists.1 there
  rw [(call_move call).1]
  simp only [Call.step, Service.reopenRecord_of_some working found]
  exact ⟨_, _, _, rfl⟩

/-- An operation that has opened a record is about to enter the table. -/
theorem enters_of_opens (working : t.service.outage = none) (opens : t.Opens id k) :
    ∃ mode w request, (t.move (.call k)).calls[k]? = some (.enter id mode w request) := by
  rcases opens with ⟨w, mode, request, call, same⟩ | reopens
  · rw [(call_move call).1]
    simp only [Call.step, Service.createRecord_of_working working, same]
    exact ⟨_, _, _, rfl⟩
  · obtain ⟨mode, w, run, enters⟩ := enters_of_reopens working reopens
    exact ⟨mode, w, .resume run, enters⟩

end Traffic

end Conveyor
