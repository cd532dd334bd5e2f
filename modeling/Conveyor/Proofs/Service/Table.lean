/-
What one move of the traffic does to the service.

Most moves do not touch the table of active runs. An operation enters a run, which gives out a new
token; a job that is done removes the entry of its id, and so does a stop; a launch looks up the
token of the entry. `Moved` lists the kinds of moves with what they leave, and `moved_move` says
that every move is one of them. `entry_move` reads off what has become of one entry of the table.

Tokens are given out in ascending order, so a token that is given out anew is none of those that are
in use (`Issued`).
-/
import Conveyor.Proofs.Run.Without
import Conveyor.Service.Traffic

set_option autoImplicit false

namespace Conveyor

/-! ## Changes of the records -/

namespace Service

variable {s s' : Service}

theorem withRecords_ok {f : RecordStore → Except StoreError RecordStore}
    (done : s.withRecords f = .ok s') :
    ∃ records, s' = { s with records := records } := by
  rw [withRecords] at done
  split at done
  · simp only [reduceCtorEq] at done
  · cases changed : f s.records with
    | error e => simp only [changed, Except.map, reduceCtorEq] at done
    | ok records =>
      simp only [changed, Except.map, Except.ok.injEq] at done
      exact ⟨records, done.symm⟩

theorem tryRecords_eq (s : Service) (f : RecordStore → Except StoreError RecordStore) :
    ∃ records, s.tryRecords f = { s with records := records } := by
  rw [tryRecords]
  split
  · rename_i s' done
    exact withRecords_ok done
  · exact ⟨s.records, rfl⟩

theorem createRecord_ok {workflowId id : String} {mode : RunMode}
    (done : s.createRecord workflowId mode = .ok (id, s')) :
    ∃ records, s' = { s with records := records, created := s.created + 1 } := by
  simp only [createRecord, bind, Except.bind, pure, Except.pure] at done
  split at done
  · simp only [reduceCtorEq] at done
  · rename_i s₁ saved
    obtain ⟨records, rfl⟩ := withRecords_ok saved
    obtain ⟨-, rfl⟩ := Prod.mk.inj (Except.ok.inj done)
    exact ⟨records, rfl⟩

theorem launch_ok {id : String} {work : Work} (done : s.launch id work = .ok s') :
    ∃ entry, s.active.get? id = some entry ∧
      s' = { s with jobs := s.jobs ++ [⟨id, entry.token, .launched work⟩] } := by
  rw [launch] at done
  split at done
  · rename_i entry found
    exact ⟨entry, found, (Except.ok.inj done).symm⟩
  · simp only [reduceCtorEq] at done

/-- A stop removes at most the entry of its id, and cancels at most a token. -/
theorem stop_eq (s : Service) (id : String) : ∃ active canceled,
    (s.stop id).2 = { s with active := active, canceled := canceled } ∧ active.get? id = none ∧
      ∀ other, other ≠ id → active.get? other = s.active.get? other := by
  rw [stop]
  split
  · exact ⟨_, _, rfl, Named.get?_erase_self _ _,
      fun other differ => Named.get?_erase_of_ne differ _⟩
  · rename_i none
    exact ⟨s.active, s.canceled, rfl, none, fun _ _ => rfl⟩

end Service

/-! ## Moves -/

namespace JobStage

/-- The run of the job is still to come or under way. -/
def Live : JobStage → Prop
  | launched _ | running .. => True
  | returned _ | recorded _ | ended _ | collected => False

/-- The run of the job has left the table. -/
def Over : JobStage → Prop
  | ended _ | collected => True
  | launched _ | running .. | returned _ | recorded _ => False

theorem Over.not_live {stage : JobStage} (past : stage.Over) : ¬ stage.Live := by
  cases stage with
  | ended result => exact id
  | collected => exact id
  | launched work => exact past.elim
  | running x φ => exact past.elim
  | returned result => exact past.elim
  | recorded result => exact past.elim

end JobStage

namespace Traffic

variable {t : Traffic} {m : Move} {id : String} {k : Nat} {j : Job}

/-- The move puts a run into the table under an id. -/
def Registers (t : Traffic) (id : String) (m : Move) : Prop :=
  ∃ k mode w request, m = .call k ∧ t.calls[k]? = some (.enter id mode w request)

/-- By the move a job that is done removes the entry of its id. -/
def Clears (t : Traffic) (id : String) (k : Nat) (m : Move) : Prop :=
  m = .job k ∧ ∃ j result, t.service.jobs[k]? = some j ∧ j.id = id ∧ j.stage = .recorded result

/-- The move may change the entry of an id. -/
def Touches (t : Traffic) (id : String) (m : Move) : Prop :=
  t.Registers id m ∨ (∃ k, t.Clears id k m) ∨ m = .stop id

theorem touches_call : t.Touches id (.call k) ↔
    ∃ mode w request, t.calls[k]? = some (.enter id mode w request) := by
  constructor
  · rintro (⟨k', mode, w, request, same, call⟩ | ⟨k', same, _⟩ | same)
    · obtain rfl := Move.call.inj same
      exact ⟨mode, w, request, call⟩
    · simp only [reduceCtorEq] at same
    · simp only [reduceCtorEq] at same
  · rintro ⟨mode, w, request, call⟩
    exact .inl ⟨k, mode, w, request, rfl, call⟩

theorem touches_job : t.Touches id (.job k) ↔
    ∃ j result, t.service.jobs[k]? = some j ∧ j.id = id ∧ j.stage = .recorded result := by
  constructor
  · rintro (⟨k', mode, w, request, same, _⟩ | ⟨k', same, done⟩ | same)
    · simp only [reduceCtorEq] at same
    · obtain rfl := Move.job.inj same
      exact done
    · simp only [reduceCtorEq] at same
  · exact fun done => .inr (.inl ⟨k, rfl, done⟩)

theorem touches_stop {other : String} : t.Touches id (.stop other) ↔ other = id := by
  constructor
  · rintro (⟨k', mode, w, request, same, _⟩ | ⟨k', same, _⟩ | same)
    · simp only [reduceCtorEq] at same
    · simp only [reduceCtorEq] at same
    · exact Move.stop.inj same
  · rintro rfl
    exact .inr (.inr rfl)

theorem not_touches_begin {c : Call} : ¬ t.Touches id (.begin c) := by
  rintro (⟨k', mode, w, request, same, _⟩ | ⟨k', same, _⟩ | same)
    <;> simp only [reduceCtorEq] at same

end Traffic

/-- What a move makes of a service. -/
inductive Moved (t : Traffic) (m : Move) : Service → Prop
  /-- At most the records are changed. -/
  | aside (records : RecordStore) (created : Nat) (quiet : ∀ id, ¬ t.Touches id m) :
      Moved t m { t.service with records := records, created := created }
  /-- A run enters the table. -/
  | entered {k : Nat} {id : String} {mode : RunMode} {w : Workflow} {request : Request}
    (move : m = .call k)
      (call : t.calls[k]? = some (.enter id mode w request)) :
        Moved t m (t.service.enter id w.id mode)
  /-- A run of the table is launched. -/
  | launched {k : Nat} {id : String} {w : Workflow} {request : Request} {entry : ActiveRun}
    (move : m = .call k)
      (call : t.calls[k]? = some (.launch id w request))
        (found : t.service.active.get? id = some entry) :
      Moved t m { t.service with
        jobs := t.service.jobs ++ [⟨id, entry.token, .launched (.engine w request)⟩] }
  /-- A job goes on; it may have changed its record, and its node may have canceled it. -/
  | worked {k : Nat} {j : Job} {stage : JobStage} (records : RecordStore) (canceled : List Nat)
      (move : m = .job k) (job : t.service.jobs[k]? = some j) (before : ∀ result,
        j.stage ≠ .recorded result)
      (past : j.stage.Over → stage = j.stage) :
      Moved t m
        (({ t.service with records := records, canceled := canceled } : Service).setStage k stage)
  /-- A job that is done removes the entry of its id. -/
  | left {k : Nat} {j : Job} {result : Except Failure Run} (move : m = .job k)
      (job : t.service.jobs[k]? = some j) (stage : j.stage = .recorded result) :
      Moved t m ((t.service.leave j.id).setStage k (.ended result))
  | stopped {id : String} (move : m = .stop id) : Moved t m (t.service.stop id).2

namespace Traffic

variable {t : Traffic} {m : Move} {id : String} {k : Nat} {j : Job}

theorem moved_call {c : Call} (call : t.calls[k]? = some c) :
    Moved t (.call k) (c.step t.service).2 := by
  -- Only the entry into the table touches it.
  have quiet : (∀ id mode w request, c ≠ .enter id mode w request) →
      ∀ id, ¬ t.Touches id (.call k) := by
    intro other id touches
    obtain ⟨mode, w, request, enters⟩ := touches_call.1 touches
    exact other id mode w request (Option.some.inj (call.symm.trans enters))
  have still : (∀ id mode w request, c ≠ .enter id mode w request) → Moved t (.call k) t.service :=
    fun other => .aside t.service.records t.service.created (quiet other)
  cases c with
  | find workflowId mode items =>
    simp only [Call.step]
    split <;> exact still fun _ _ _ _ same => Call.noConfusion same
  | create w mode request =>
    simp only [Call.step]
    split
    · rename_i done
      obtain ⟨records, rfl⟩ := Service.createRecord_ok done
      exact .aside _ _ (quiet fun _ _ _ _ same => Call.noConfusion same)
    · exact still fun _ _ _ _ same => Call.noConfusion same
  | read id =>
    simp only [Call.step]
    split
    · exact still fun _ _ _ _ same => Call.noConfusion same
    · exact still fun _ _ _ _ same => Call.noConfusion same
    · split <;> exact still fun _ _ _ _ same => Call.noConfusion same
  | load id record =>
    simp only [Call.step]
    split <;> exact still fun _ _ _ _ same => Call.noConfusion same
  | reopen id record w =>
    simp only [Call.step]
    split
    · rename_i done
      obtain ⟨records, rfl⟩ := Service.withRecords_ok done
      exact .aside _ _ (quiet fun _ _ _ _ same => Call.noConfusion same)
    · exact still fun _ _ _ _ same => Call.noConfusion same
  | enter id mode w request => exact .entered rfl call
  | launch id w request =>
    simp only [Call.step]
    split
    · rename_i done
      obtain ⟨entry, found, rfl⟩ := Service.launch_ok done
      exact .launched rfl call found
    · exact still fun _ _ _ _ same => Call.noConfusion same
  | finished result => exact still fun _ _ _ _ same => Call.noConfusion same

/-- One step of a run changes at most its record and its token. -/
theorem runStep_eq (s : Service) (token : Nat) (x : Execution) (φ : Phase) : ∃ records canceled,
    (s.runStep token x φ).2 = { s with records := records, canceled := canceled } := by
  cases φ with
  | stopped p c =>
    obtain ⟨records, kept⟩ :=
      s.tryRecords_eq fun records => .ok (records.settle (s.engine.finish x p c).1)
    exact ⟨records, s.canceled, kept⟩
  | broken message => exact ⟨s.records, s.canceled, rfl⟩
  | ready p =>
    simp only [Service.runStep]
    split
    · exact ⟨s.records, _, rfl⟩
    · exact ⟨s.records, s.canceled, rfl⟩
  | lingering p n en r =>
    simp only [Service.runStep]
    split
    · exact ⟨s.records, _, rfl⟩
    · exact ⟨s.records, s.canceled, rfl⟩

theorem moved_job (job : t.service.jobs[k]? = some j) :
    Moved t (.job k) ((t.service.jobStep j).2.setStage k (t.service.jobStep j).1) := by
  have worked : ∀ {stage}, (∀ result, j.stage ≠ .recorded result) →
      (j.stage.Over → stage = j.stage) → Moved t (.job k) (t.service.setStage k stage) :=
    fun before past => .worked t.service.records t.service.canceled rfl job before past
  -- Only a job that has recorded its result touches the table; a job that is done stays what it is.
  cases stage : j.stage with
  | launched work =>
    simp only [Service.jobStep, stage]
    exact worked (by simp [stage]) (by simp [stage, JobStage.Over])
  | running x φ =>
    simp only [Service.jobStep, stage]
    obtain ⟨records, canceled, same⟩ := runStep_eq t.service j.token x
      (if t.service.isCanceled j.token then φ.cancel else φ)
    rw [same]
    exact .worked records canceled rfl job (by simp [stage]) (by simp [stage, JobStage.Over])
  | returned result =>
    cases result with
    | ok run =>
      simp only [Service.jobStep, stage]
      exact worked (by simp [stage]) (by simp [stage, JobStage.Over])
    | error f =>
      simp only [Service.jobStep, stage]
      obtain ⟨records, kept⟩ := t.service.tryRecords_eq fun records =>
        records.setStatus t.service.engine.now j.id f.status
      rw [Service.recordFailure, kept]
      exact .worked records t.service.canceled rfl job (by simp [stage])
        (by simp [stage, JobStage.Over])
  | recorded result =>
    simp only [Service.jobStep, stage]
    exact .left rfl job stage
  | ended result =>
    simp only [Service.jobStep, stage]
    exact worked (by simp [stage]) (fun _ => stage.symm)
  | collected =>
    simp only [Service.jobStep, stage]
    exact worked (by simp [stage]) (fun _ => stage.symm)

/-- **Every move is one of these.** -/
theorem moved_move (t : Traffic) (m : Move) : Moved t m (t.move m).service := by
  cases m with
  | begin c => exact .aside t.service.records t.service.created fun _ => not_touches_begin
  | call k =>
    simp only [move]
    split
    · rename_i c call
      exact moved_call call
    · rename_i none
      -- A position where there is no operation leaves everything as it was.
      refine .aside t.service.records t.service.created fun id touches => ?_
      obtain ⟨mode, w, request, call⟩ := touches_call.1 touches
      exact Option.some_ne_none _ (call.symm.trans none)
  | job k =>
    simp only [move, Service.stepJob]
    split
    · rename_i j job
      exact moved_job job
    · rename_i none
      refine .aside t.service.records t.service.created fun id touches => ?_
      obtain ⟨j, result, job, -⟩ := touches_job.1 touches
      exact Option.some_ne_none _ (job.symm.trans none)
  | stop id => exact .stopped rfl

/-! ## The entry of an id -/

/-- What becomes of the entry of an id in a move. -/
inductive EntryMoved (t : Traffic) (m : Move) (id : String) : Option ActiveRun → Prop
  | kept (quiet : ¬ t.Touches id m) : EntryMoved t m id (t.service.active.get? id)
  | registered {entry : ActiveRun} (registers : t.Registers id m)
    (token : entry.token = t.service.tokens) :
      EntryMoved t m id (some entry)
  | removed (by_ : (∃ k, t.Clears id k m) ∨ m = .stop id) : EntryMoved t m id none

/-- **The entry of an id stays until it is touched**: then it is gone, or has a token that was given
out just now. -/
theorem entry_move (t : Traffic) (m : Move) (id : String) :
    EntryMoved t m id ((t.move m).service.active.get? id) := by
  have moved := moved_move t m
  generalize (t.move m).service = s' at moved
  cases moved with
  | aside records created quiet => exact .kept (quiet id)
  | @entered k id' mode w request move call =>
    -- A new entry hides the old one of its id, and no other.
    by_cases same : id = id'
    · subst same
      rw [Service.enter, Named.get?_insert_self]
      exact .registered ⟨k, mode, w, request, move, call⟩ rfl
    · rw [Service.enter, Named.get?_insert_of_ne same]
      refine .kept fun touches => ?_
      rw [move] at touches
      obtain ⟨_, _, _, call'⟩ := touches_call.1 touches
      exact same (Call.enter.inj (Option.some.inj (call'.symm.trans call))).1
  | @launched k id' w request entry move call found =>
    refine .kept fun touches => ?_
    rw [move] at touches
    obtain ⟨_, _, _, call'⟩ := touches_call.1 touches
    simpa only [reduceCtorEq] using Option.some.inj (call'.symm.trans call)
  | @worked k j stage records canceled move job before past =>
    refine .kept fun touches => ?_
    rw [move] at touches
    obtain ⟨j', result, job', -, done⟩ := touches_job.1 touches
    obtain rfl := Option.some.inj (job'.symm.trans job)
    exact before result done
  | @left k j result move job done =>
    -- A job removes the entry of its id, whoever put it there.
    by_cases same : id = j.id
    · subst same
      rw [Service.setStage, Service.leave, Named.get?_erase_self]
      exact .removed (.inl ⟨k, move, j, result, job, rfl, done⟩)
    · rw [Service.setStage, Service.leave, Named.get?_erase_of_ne same]
      refine .kept fun touches => ?_
      rw [move] at touches
      obtain ⟨j', _, job', here, _⟩ := touches_job.1 touches
      obtain rfl := Option.some.inj (job'.symm.trans job)
      exact same here.symm
  | @stopped id' move =>
    obtain ⟨active, canceled, stops, gone, kept⟩ := t.service.stop_eq id'
    rw [stops]
    by_cases same : id = id'
    · subst same
      rw [gone]
      exact .removed (.inr move)
    · rw [kept id same]
      refine .kept fun touches => same ?_
      rw [move] at touches
      exact (touches_stop.1 touches).symm

/-! ## Tokens -/

/-- Every token in use was given out before, and no two runs of the table have the same one. -/
structure Issued (s : Service) : Prop where
  table : ∀ id entry, s.active.get? id = some entry → entry.token < s.tokens
  apart : ∀ id id' entry entry', s.active.get? id = some entry → s.active.get? id' = some entry' →
    entry.token = entry'.token → id = id'
  jobs : ∀ j ∈ s.jobs, j.token < s.tokens

/-- What a service has removed from its table, it need not look at. -/
theorem Issued.shrink {s s' : Service} (issued : Issued s)
    (table : ∀ id entry, s'.active.get? id = some entry → s.active.get? id = some entry)
    (tokens : s'.tokens = s.tokens) (jobs : ∀ j ∈ s'.jobs, j.token < s.tokens) : Issued s' where
  table id entry found := tokens ▸ issued.table id entry (table id entry found)
  apart id id' entry entry' found found' :=
    issued.apart id id' entry entry' (table _ _ found) (table _ _ found')
  jobs := tokens ▸ jobs

/-- What is found in a table without an id was there before. -/
theorem get?_of_gone {table table' : Named ActiveRun} (gone : table'.get? id = none)
    (kept : ∀ other, other ≠ id → table'.get? other = table.get? other) {other : String}
    {entry : ActiveRun} (found : table'.get? other = some entry) :
    table.get? other = some entry := by
  by_cases same : other = id
  · rw [same, gone] at found
    simp only [reduceCtorEq] at found
  · rwa [kept other same] at found

/-- A job keeps its token while its stage changes. -/
theorem token_of_mem_modify {jobs : List Job} {k : Nat} {stage : JobStage} {j : Job}
    (hj : j ∈ jobs.modify k fun j => { j with stage := stage }) :
    ∃ j' ∈ jobs, j'.token = j.token := by
  obtain ⟨i, hi⟩ := List.mem_iff_getElem?.1 hj
  rw [List.getElem?_modify] at hi
  obtain ⟨j', hj', rfl⟩ := Option.map_eq_some_iff.1 hi
  refine ⟨j', List.mem_of_getElem? hj', ?_⟩
  split <;> rfl

/-- **Tokens stay in order.** -/
theorem Issued.move (issued : Issued t.service) (m : Move) : Issued (t.move m).service := by
  have moved := moved_move t m
  generalize (t.move m).service = s' at moved
  cases moved with
  | aside records created quiet => exact ⟨issued.table, issued.apart, issued.jobs⟩
  | @entered k id mode w request move call =>
    -- Of the entries after a registration, one has the new token and all others were there before.
    have found : ∀ id' entry, (t.service.enter id w.id mode).active.get? id' = some entry →
        (id' = id ∧ entry.token = t.service.tokens) ∨ t.service.active.get? id' = some entry := by
      intro id' entry here
      by_cases same : id' = id
      · rw [same, Service.enter, Named.get?_insert_self] at here
        exact .inl ⟨same, (Option.some.inj here) ▸ rfl⟩
      · rw [Service.enter, Named.get?_insert_of_ne same] at here
        exact .inr here
    refine ⟨fun id' entry here => ?_, fun id₁ id₂ e₁ e₂ here₁ here₂ token => ?_, fun j hj => ?_⟩
    · show entry.token < t.service.tokens + 1
      rcases found id' entry here with ⟨_, new⟩ | old
      · omega
      · have := issued.table id' entry old
        omega
    -- Two entries with one token are either both new or both old: the new token is above all that
    -- were given out.
    · rcases found id₁ e₁ here₁ with ⟨same₁, new₁⟩ | old₁ <;>
        rcases found id₂ e₂ here₂ with ⟨same₂, new₂⟩ | old₂
      · rw [same₁, same₂]
      · have := issued.table id₂ e₂ old₂
        omega
      · have := issued.table id₁ e₁ old₁
        omega
      · exact issued.apart _ _ _ _ old₁ old₂ token
    · exact Nat.lt_succ_of_lt (issued.jobs j hj)
  | @launched k id w request entry move call found =>
    -- The job takes the token of the entry that was found, which was given out.
    refine issued.shrink (fun _ _ here => here) rfl fun j hj => ?_
    rcases List.mem_append.1 hj with old | new
    · exact issued.jobs j old
    · rw [List.mem_singleton.1 new]
      exact issued.table id entry found
  | @worked k j stage records canceled move job before past =>
    refine issued.shrink (fun _ _ here => here) rfl fun j hj => ?_
    obtain ⟨j', hj', same⟩ := token_of_mem_modify hj
    exact same ▸ issued.jobs j' hj'
  | @left k j result move job done =>
    refine issued.shrink (fun _ _ => get?_of_gone (Named.get?_erase_self _ _)
      fun _ differ => Named.get?_erase_of_ne differ _) rfl fun j hj => ?_
    obtain ⟨j', hj', same⟩ := token_of_mem_modify hj
    exact same ▸ issued.jobs j' hj'
  | @stopped id move =>
    obtain ⟨active, canceled, stops, gone, kept⟩ := t.service.stop_eq id
    rw [stops]
    exact issued.shrink (fun _ _ => get?_of_gone gone kept) rfl issued.jobs

/-- A registration gives out the next token, and no move takes tokens back. -/
theorem tokens_move (t : Traffic) (m : Move) : t.service.tokens ≤ (t.move m).service.tokens ∧
    ∀ id, t.Registers id m → (t.move m).service.tokens = t.service.tokens + 1 := by
  have moved := moved_move t m
  -- Only an operation registers a run.
  have none : (∀ k, m ≠ .call k) → ∀ id, ¬ t.Registers id m := by
    rintro other id ⟨k, _, _, _, call, _⟩
    exact other k call
  generalize (t.move m).service = s' at moved
  cases moved with
  | aside records created quiet =>
    exact ⟨Nat.le_refl _, fun id registers => absurd (.inl registers) (quiet id)⟩
  | entered move call => exact ⟨Nat.le_succ _, fun _ _ => rfl⟩
  | launched move call found =>
    refine ⟨Nat.le_refl _, fun id registers => ?_⟩
    obtain ⟨k', _, _, _, move', call'⟩ := registers
    obtain rfl := Move.call.inj (move.symm.trans move')
    exact Call.noConfusion (Option.some.inj (call'.symm.trans call))
  | worked records canceled move job before past =>
    exact ⟨Nat.le_refl _, fun id registers => absurd registers (none (by simp [move]) id)⟩
  | left move job done =>
    exact ⟨Nat.le_refl _, fun id registers => absurd registers (none (by simp [move]) id)⟩
  | @stopped id' move =>
    obtain ⟨active, canceled, stops, -, -⟩ := t.service.stop_eq id'
    rw [stops]
    exact ⟨Nat.le_refl _, fun id registers => absurd registers (none (by simp [move]) id)⟩

/-! ## Jobs -/

/-- By the move a job is launched at a position. -/
def Launches (t : Traffic) (m : Move) (k : Nat) (j : Job) : Prop :=
  t.service.jobs.length = k ∧ (t.move m).service.jobs[k]? = some j

/-- A job that is launched has the token of the entry of its id, and this entry stays. -/
theorem Launches.entry (launches : t.Launches m k j) :
    ∃ entry, t.service.active.get? j.id = some entry ∧ entry.token = j.token ∧
    (t.move m).service.active = t.service.active ∧ (t.move m).service.jobs = t.service.jobs
    ++ [j] := by
  obtain ⟨rfl, job⟩ := launches
  have moved := moved_move t m
  -- Only a launch makes the list of jobs longer, so the new job cannot come from another move.
  have none : ∀ jobs : List Job, jobs.length = t.service.jobs.length →
      jobs[t.service.jobs.length]? ≠ some j := by
    intro jobs length found
    obtain ⟨h, -⟩ := List.getElem?_eq_some_iff.1 found
    omega
  generalize (t.move m).service = s' at moved job
  cases moved with
  | aside records created quiet => exact absurd job (none _ rfl)
  | entered move call => exact absurd job (none _ rfl)
  | @launched k id w request entry move call found =>
    rw [List.getElem?_concat_length] at job
    obtain rfl := Option.some.inj job
    exact ⟨entry, found, rfl, rfl, rfl⟩
  | worked records canceled move job' before past =>
    exact absurd job (none _ (List.length_modify _ _ _))
  | left move job' done => exact absurd job (none _ (List.length_modify _ _ _))
  | @stopped id move =>
    obtain ⟨active, canceled, stops, -, -⟩ := t.service.stop_eq id
    rw [stops] at job
    exact absurd job (none _ rfl)

/-- What becomes of the jobs in a move. -/
inductive JobsMoved (t : Traffic) (m : Move) : List Job → Prop
  | kept (quiet : ∀ id k, ¬ t.Clears id k m) : JobsMoved t m t.service.jobs
  | launched {j : Job} (launches : t.Launches m t.service.jobs.length j) (quiet : ∀ id k,
    ¬ t.Clears id k m) :
      JobsMoved t m (t.service.jobs ++ [j])
  /-- A job goes on; once it has left the table, it stays away. -/
  | worked {k : Nat} {j : Job} {stage : JobStage} (move : m = .job k)
    (job : t.service.jobs[k]? = some j)
      (past : (j.stage.Over ∨ ∃ result, j.stage = .recorded result) → stage.Over) :
      JobsMoved t m (t.service.jobs.modify k fun j => { j with stage := stage })

theorem jobs_move (t : Traffic) (m : Move) : JobsMoved t m (t.move m).service.jobs := by
  have moved := moved_move t m
  generalize after : (t.move m).service = s' at moved
  cases moved with
  | aside records created quiet => exact .kept fun id k clears => quiet id (.inr (.inl ⟨k, clears⟩))
  | entered move call => exact .kept fun id k clears => Move.noConfusion (move.symm.trans clears.1)
  | @launched k id w request entry move call found =>
    refine .launched ⟨rfl, ?_⟩ fun id k clears => Move.noConfusion (move.symm.trans clears.1)
    rw [after, List.getElem?_concat_length]
  | worked records canceled move job before past =>
    refine .worked move job ?_
    rintro (gone | ⟨result, done⟩)
    · rw [past gone]
      exact gone
    · exact absurd done (before result)
  | left move job done => exact .worked move job fun _ => trivial
  | @stopped id move =>
    obtain ⟨active, canceled, stops, -, -⟩ := t.service.stop_eq id
    rw [stops]
    exact .kept fun id k clears => Move.noConfusion (move.symm.trans clears.1)

/-- A job stays what it is, and stays away from the table once it has left it. -/
theorem job_move (job : t.service.jobs[k]? = some j) (m : Move) :
    ∃ j', (t.move m).service.jobs[k]? = some j' ∧ j'.id = j.id ∧ j'.token = j.token ∧
    (j.stage.Over ∨ (∃ id, t.Clears id k m) → j'.stage.Over) := by
  have moved := jobs_move t m
  generalize (t.move m).service.jobs = jobs at moved
  cases moved with
  | kept quiet =>
    refine ⟨j, job, rfl, rfl, ?_⟩
    -- A clearing is a move of a job, so a move that brings no job forward clears nothing.
    rintro (past | ⟨id, clears⟩)
    · exact past
    · exact absurd clears (quiet id k)
  | launched launches quiet =>
    refine ⟨j, (List.getElem?_append_left (List.getElem?_eq_some_iff.1 job).1).trans job,
      rfl, rfl, ?_⟩
    rintro (past | ⟨id, clears⟩)
    · exact past
    · exact absurd clears (quiet id k)
  | @worked k' j' stage move job' past =>
    rw [List.getElem?_modify, job]
    by_cases same : k' = k
    · subst same
      obtain rfl := Option.some.inj (job.symm.trans job')
      refine ⟨{ j with stage := stage }, by simp, rfl, rfl, fun gone => ?_⟩
      rcases gone with gone | ⟨id, _, j', result, here, _, done⟩
      · exact past (.inl gone)
      · obtain rfl := Option.some.inj (job.symm.trans here)
        exact past (.inr ⟨result, done⟩)
    · refine ⟨j, by simp [same], rfl, rfl, ?_⟩
      rintro (gone | ⟨id, clears, _⟩)
      · exact gone
      · exact absurd (Move.job.inj (move.symm.trans clears)) same

/-- A job that is there after a move was there before it, or is launched by it. -/
theorem job_of_move {j' : Job} (job : (t.move m).service.jobs[k]? = some j') :
    (∃ j, t.service.jobs[k]? = some j ∧ j.id = j'.id ∧ j.token = j'.token) ∨ t.Launches m k j' := by
  have moved := jobs_move t m
  have launches : t.service.jobs.length = k → t.Launches m k j' := fun length => ⟨length, job⟩
  generalize (t.move m).service.jobs = jobs at moved job
  cases moved with
  | kept quiet => exact .inl ⟨j', job, rfl, rfl⟩
  | launched launched quiet =>
    obtain ⟨h, _⟩ := List.getElem?_eq_some_iff.1 job
    rw [List.length_append, List.length_singleton] at h
    by_cases last : t.service.jobs.length = k
    · exact .inr (launches last)
    · rw [List.getElem?_append_left (by omega)] at job
      exact .inl ⟨j', job, rfl, rfl⟩
  | @worked k' j stage move job' past =>
    rw [List.getElem?_modify] at job
    obtain ⟨j₀, hj₀, rfl⟩ := Option.map_eq_some_iff.1 job
    refine .inl ⟨j₀, hj₀, ?_, ?_⟩ <;> split <;> rfl

end Traffic

end Conveyor
