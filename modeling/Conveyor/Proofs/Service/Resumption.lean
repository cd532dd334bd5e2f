/-
How often a run that waits is resumed.

A run that waits is resumed in steps: its record is read and must say that the run waits, its
workflow is loaded, its record is marked as running, the run enters the table, and it is launched.
The status is looked at in the first of these steps only. Once the record is marked nobody else gets
past that step, until a run of the id pauses and is saved as waiting again; but whoever is past it
already goes on to the launch, whatever the record says by then.

So an operation that marks the record is the only one to launch the run exactly if no other one is
past the reading at that moment. The invariant is `Taken`: the record does not say that the run
waits, and no other operation is past the reading. Where another one is, `both_relaunched` lets both
launch the run.
-/
import Conveyor.Proofs.Service.Ownership

set_option autoImplicit false

namespace Conveyor

namespace Call

variable {s : Service} {c : Call} {id : String} {workflows : WorkflowStore}

/-- The operation resumes the run of an id, and has no result yet. -/
def Resumes (id : String) : Call → Prop
  | read id' | load id' _ | reopen id' _ _ => id' = id
  | enter id' _ _ request | launch id' _ request => id' = id ∧ ∃ run, request = .resume run
  | find .. | create .. | finished _ => False

/-- The operation has read that the run of an id waits, and nothing but the table can keep it from
launching it. -/
def Arms (workflows : WorkflowStore) (id : String) : Call → Prop
  | load id' record => id' = id ∧ (workflows.get? record.workflowId).isSome
  | reopen id' _ _ => id' = id
  | enter id' _ _ request | launch id' _ request => id' = id ∧ ∃ run, request = .resume run
  | find .. | create .. | read _ | finished _ => False

/-- An operation that is past the reading was so before, or has just read that the run waits. -/
theorem Arms.origin (sound : c.Sound) (arms : (c.step s).1.Arms s.workflows id) :
    -- Only the reading arms an operation; in the other steps it is armed as it was, or is not any
    -- more.
    c.Arms s.workflows id ∨ ∃ r, s.records.get? id = some r ∧ r.status = .waiting := by
  cases c with
  | find workflowId mode items =>
    simp only [step] at arms
    split at arms <;> exact arms.elim
  | create w mode request =>
    simp only [step] at arms
    split at arms
    · obtain ⟨-, run, resumed⟩ := arms
      -- What is created never resumes a run.
      exact absurd resumed ((sound _).2 run)
    · exact arms.elim
  | read id' =>
    simp only [step] at arms
    split at arms
    · exact arms.elim
    · exact arms.elim
    · rename_i record found
      split at arms
      · rename_i waiting
        obtain ⟨rfl, -⟩ := arms
        rw [Service.record?] at found
        split at found
        · simp only [reduceCtorEq] at found
        -- The record that is read tells the state of the run, and here it says that the run waits.
        · exact .inr ⟨record, Except.ok.inj found, waiting⟩
      · exact arms.elim
  | load id' record =>
    simp only [step] at arms
    split at arms
    · rename_i w found
      exact .inl ⟨arms, found ▸ rfl⟩
    · exact arms.elim
  | reopen id' record w =>
    simp only [step] at arms
    split at arms
    · exact .inl arms.1
    · exact arms.elim
  | enter id' mode w request => exact .inl arms
  | launch id' w request =>
    simp only [step] at arms
    split at arms <;> exact arms.elim
  | finished result => exact arms.elim

/-- An operation that is past the reading comes to its launch, as long as the record is there. -/
theorem Arms.step (working : s.outage = none) (there : (s.records.get? id).isSome)
    (arms : c.Arms s.workflows id) :
    (∃ w run, c = .launch id w (.resume run)) ∨ (c.step s).1.Arms s.workflows id := by
  cases c with
  | load id' record =>
    obtain ⟨w, found⟩ := Option.isSome_iff_exists.1 arms.2
    simp only [Call.step, found]
    exact .inr arms.1
  | reopen id' record w =>
    obtain rfl : id' = id := arms
    obtain ⟨r, found⟩ := Option.isSome_iff_exists.1 there
    simp only [Call.step, Service.reopenRecord_of_some working found]
    exact .inr ⟨rfl, _, rfl⟩
  | enter id' mode w request => exact .inr arms
  | launch id' w request =>
    obtain ⟨rfl, run, rfl⟩ := arms
    exact .inl ⟨w, run, rfl⟩
  | find => exact arms.elim
  | create => exact arms.elim
  | read => exact arms.elim
  | finished => exact arms.elim

/-- An operation that resumes a run goes on so, or fails, or has come to its launch. -/
theorem Resumes.step (resumes : c.Resumes id) : (c.step s).1.Resumes id ∨
    (∃ e, (c.step s).1 = .finished (.error e)) ∨
    ∃ w run entry, c = .launch id w (.resume run) ∧ s.active.get? id = some entry := by
  -- Each of the steps passes its check and goes on, or the check fails and the operation with it.
  -- The launch is the exception: it fails when nothing is active under the id, and otherwise it is
  -- what is asked for.
  cases c with
  | read id' =>
    simp only [Call.step]
    split
    · exact .inr (.inl ⟨_, rfl⟩)
    · exact .inr (.inl ⟨_, rfl⟩)
    · split
      · exact .inl resumes
      · exact .inr (.inl ⟨_, rfl⟩)
  | load id' record =>
    simp only [Call.step]
    split
    · exact .inl resumes
    · exact .inr (.inl ⟨_, rfl⟩)
  | reopen id' record w =>
    simp only [Call.step]
    split
    · exact .inl ⟨resumes, _, rfl⟩
    · exact .inr (.inl ⟨_, rfl⟩)
  | enter id' mode w request => exact .inl resumes
  | launch id' w request =>
    obtain ⟨rfl, run, rfl⟩ := resumes
    cases found : s.active.get? id' with
    | some entry => exact .inr (.inr ⟨w, run, entry, rfl, rfl⟩)
    | none =>
      simp only [Call.step, Service.launch, found]
      exact .inr (.inl ⟨_, rfl⟩)
  | find => exact resumes.elim
  | create => exact resumes.elim
  | finished => exact resumes.elim

end Call

namespace Traffic

variable {t : Traffic} {m : Move} {ms : List Move} {id : String} {k : Nat}

/-- An operation is past the reading of a record that says that the run of an id waits. -/
def Armed (t : Traffic) (id : String) (k : Nat) : Prop :=
  ∃ c, t.calls[k]? = some c ∧ c.Arms t.service.workflows id

/-- By the move a run of an id that has paused is saved as waiting. -/
def SavesWaiting (t : Traffic) (id : String) (m : Move) : Prop :=
  ∃ k j x p c, m = .job k ∧ t.service.jobs[k]? = some j ∧ j.stage = .running x (.stopped p c) ∧
    (t.service.engine.finish x p c).1.id = id ∧
      (t.service.engine.finish x p c).1.needsDelete = false ∧
    (t.service.engine.finish x p c).1.status = .waiting

/-- By the move an operation launches a run. -/
def LaunchesBy (t : Traffic) (k : Nat) (m : Move) : Prop := m = .call k ∧ ∃ k' j, t.Launches m k' j

/-- By the move an operation launches a run of an id that is resumed. -/
def Relaunches (t : Traffic) (id : String) (k : Nat) (m : Move) : Prop :=
  m = .call k ∧ ∃ k' j w run, t.Launches m k' j ∧ j.id = id ∧
    j.stage = .launched (.engine w (.resume run))

/-- On the way an operation launches a run of an id that is resumed. -/
def Relaunched (t : Traffic) (id : String) (k : Nat) (ms : List Move) : Prop :=
  t.Happens (fun t m => t.Relaunches id k m) ms

/-! ## What an operation has launched -/

/-- An operation that launches a run has come to its launch, and has a result after it. -/
theorem LaunchesBy.call (launches : t.LaunchesBy k m) :
    ∃ id w request, t.calls[k]? = some (.launch id w request) ∧
    (t.move m).calls[k]? = some (.finished (.ok id)) := by
  obtain ⟨rfl, k', j, launches⟩ := launches
  obtain ⟨k'', w, request, same, call, -⟩ := launches.origin
  obtain rfl := Move.call.inj same
  obtain ⟨entry, found, -⟩ := launches.entry
  exact ⟨j.id, w, request, call, (launch_move call found).2.1⟩

theorem Relaunches.by (relaunches : t.Relaunches id k m) : t.LaunchesBy k m := by
  obtain ⟨move, k', j, -, -, launches, -⟩ := relaunches
  exact ⟨move, k', j, launches⟩

/-- Who launches a run that is resumed was past the reading. -/
theorem Relaunches.armed (relaunches : t.Relaunches id k m) : t.Armed id k := by
  obtain ⟨rfl, k', j, w, run, launches, rfl, stage⟩ := relaunches
  obtain ⟨k'', w', request, same, call, stage'⟩ := launches.origin
  obtain rfl := Move.call.inj same
  obtain ⟨rfl, rfl⟩ := Work.engine.inj (JobStage.launched.inj (stage'.symm.trans stage))
  exact ⟨_, call, rfl, run, rfl⟩

/-- An operation that has come to its launch launches its run if the run has an entry. -/
theorem relaunches_of_entry {w : Workflow} {run : Run}
    (call : t.calls[k]? = some (.launch id w (.resume run)))
    (entry : (t.service.active.get? id).isSome) : t.Relaunches id k (.call k) := by
  obtain ⟨entry, found⟩ := Option.isSome_iff_exists.1 entry
  exact ⟨rfl, _, _, w, run, (launch_move call found).1, rfl, rfl⟩

/-- An operation that has a result keeps it, and launches nothing any more. -/
theorem finished_moves {result : Except ServiceError String}
    (call : t.calls[k]? = some (.finished result)) (ms : List Move) :
    (t.moves ms).calls[k]? = some (.finished result) ∧
      ¬ t.Happens (fun t m => t.LaunchesBy k m) ms := by
  induction ms generalizing t with
  | nil => exact ⟨call, not_happens_nil⟩
  | cons m ms ih =>
    have next : (t.move m).calls[k]? = some (.finished result) := by
      by_cases own : m = .call k
      · exact own ▸ (call_move call).1
      · exact call_of_ne call own
    refine ⟨(ih next).1, ?_⟩
    rw [happens_cons, not_or]
    refine ⟨fun launches => ?_, (ih next).2⟩
    obtain ⟨id, w, request, here, -⟩ := launches.call
    exact Call.noConfusion (Option.some.inj (call.symm.trans here))

/-- **An operation that resumes a run** has launched it and gives its id, or it has failed and
launched nothing. -/
theorem resolved {result : Except ServiceError String}
    (resumes : ∃ c, t.calls[k]? = some c ∧ c.Resumes id)
    (done : (t.moves ms).calls[k]? = some (.finished result)) :
    (result = .ok id ∧ t.Relaunched id k ms) ∨
      (∃ e, result = .error e) ∧ ¬ t.Happens (fun t m => t.LaunchesBy k m) ms := by
  induction ms generalizing t with
  | nil =>
    obtain ⟨c, call, resumes⟩ := resumes
    obtain rfl := Option.some.inj (call.symm.trans done)
    exact resumes.elim
  | cons m ms ih =>
    obtain ⟨c, call, resumes⟩ := resumes
    rw [Relaunched, happens_cons, happens_cons]
    -- As long as it goes on, it has launched nothing.
    have goes : (∃ c, (t.move m).calls[k]? = some c ∧ c.Resumes id) → ¬ t.LaunchesBy k m := by
      rintro ⟨c', next, resumes'⟩ launches
      obtain ⟨id', w, request, -, finished⟩ := launches.call
      obtain rfl := Option.some.inj (next.symm.trans finished)
      exact resumes'
    have rest : (∃ c, (t.move m).calls[k]? = some c ∧ c.Resumes id) →
        (result = .ok id ∧ (t.Relaunches id k m ∨ (t.move m).Relaunched id k ms)) ∨
          (∃ e, result = .error e) ∧
          ¬ (t.LaunchesBy k m ∨ (t.move m).Happens (fun t m => t.LaunchesBy k m) ms) := by
      intro resumes'
      rcases ih resumes' done with ⟨ok, relaunched⟩ | ⟨error, none⟩
      · exact .inl ⟨ok, .inr relaunched⟩
      · exact .inr ⟨error, not_or.2 ⟨goes resumes', none⟩⟩
    by_cases own : m = .call k
    · subst own
      have next := (call_move call).1
      rcases resumes.step (s := t.service) with resumes' | ⟨e, failed⟩ | ⟨w, run, entry, rfl, found⟩
      · exact rest ⟨_, next, resumes'⟩
      · rw [failed] at next
        obtain ⟨stays, none⟩ := finished_moves next ms
        obtain rfl := Call.finished.inj (Option.some.inj (done.symm.trans stays))
        refine .inr ⟨⟨e, rfl⟩, not_or.2 ⟨fun launches => ?_, none⟩⟩
        obtain ⟨id', w, request, -, finished⟩ := launches.call
        have both := Call.finished.inj (Option.some.inj (next.symm.trans finished))
        simp only [reduceCtorEq] at both
      · obtain ⟨stays, -⟩ := finished_moves (launch_move call found).2.1 ms
        obtain rfl := Call.finished.inj (Option.some.inj (done.symm.trans stays))
        exact .inl ⟨rfl, .inl (relaunches_of_entry call (found ▸ rfl))⟩
    · exact rest ⟨c, call_of_ne call own, resumes⟩

/-! ## Nobody else -/

/-- The run of an id is an operation's to launch: its record does not say that it waits, and no
other operation is past the reading. -/
structure Taken (t : Traffic) (id : String) (k : Nat) : Prop where
  record : ∀ r, t.service.records.get? id = some r → r.status ≠ .waiting
  others : ∀ k', k' ≠ k → ¬ t.Armed id k'

/-- Who is past the reading after a move was so before, or the record says that the run waits. -/
theorem armed_of_move (sound : t.Sound) (begins : ∀ c, m = .begin c → c.Begins)
    (armed : (t.move m).Armed id k) :
    t.Armed id k ∨ ∃ r, t.service.records.get? id = some r ∧ r.status = .waiting := by
  obtain ⟨c', call', arms⟩ := armed
  rw [(fixed_move t m).2.1] at arms
  rcases call_of_move call' with call | begun | ⟨-, c, call, rfl⟩
  · exact .inl ⟨c', call, arms⟩
  · cases begins c' begun <;> exact arms.elim
  · exact (arms.origin (sound.calls c (List.mem_of_getElem? call))).imp_left fun arms =>
      ⟨c, call, arms⟩

/-- **As long as no run of the id is saved as waiting, the run is the operation's.** -/
theorem Taken.move (taken : t.Taken id k) (sound : t.Sound) (begins : ∀ c, m = .begin c → c.Begins)
    (unsaved : ¬ t.SavesWaiting id m) : (t.move m).Taken id k where
  record r found := by
    -- The record is one that this move has left, and each move that writes one says in which state:
    -- what is saved is not waiting by assumption, and what fails never is.
    have moved := record_move sound.working m id
    generalize (t.move m).service.records.get? id = left at moved found
    cases moved with
    | kept => exact taken.record r found
    | opened move opens status =>
      obtain rfl := Option.some.inj found
      simp only [status, ne_eq, reduceCtorEq, not_false_eq_true]
    | @saved k' j x p c move job stage same =>
      split at found
      · simp only [reduceCtorEq] at found
      · rename_i kept
        obtain rfl := Option.some.inj found
        intro waiting
        exact unsaved ⟨k', j, x, p, c, move, job, stage, same, Bool.not_eq_true _ ▸ kept, waiting⟩
    | @failed k' j f move job stage same =>
      obtain ⟨r', there, rfl⟩ := Option.map_eq_some_iff.1 found
      cases f <;> simp [Record.withStatus, Failure.status]
  others k' differ armed := by
    -- To arm another operation, the move would have to find the run waiting.
    rcases armed_of_move sound begins armed with armed | ⟨r, found, waiting⟩
    · exact taken.others k' differ armed
    · exact taken.record r found waiting

/-- Nobody else launches the run. -/
theorem Taken.relaunched (taken : t.Taken id k) (sound : t.Sound) (proper : Proper ms)
    (unsaved : t.Never (fun t m => t.SavesWaiting id m) ms) {k' : Nat}
    (relaunched : t.Relaunched id k' ms) :
    k' = k := by
  induction ms generalizing t with
  | nil => exact absurd relaunched not_happens_nil
  | cons m ms ih =>
    obtain ⟨first, rest⟩ := never_cons.1 unsaved
    have begins : ∀ c, m = .begin c → c.Begins := fun c same => proper c (same ▸ List.mem_cons_self)
    rcases happens_cons.1 relaunched with relaunches | relaunched
    · exact Classical.not_not.1 fun differ => taken.others k' differ relaunches.armed
    · exact ih (taken.move sound begins first) (sound.move begins)
        (fun c hc => proper c (List.mem_cons_of_mem m hc)) rest relaunched

/-- An operation that marks the record makes the run its own if nobody else is past the reading. -/
theorem taken_of_reopens (sound : t.Sound) (reopens : t.Reopens id k)
    (others : ∀ k', k' ≠ k → ¬ t.Armed id k') : (t.move (.call k)).Taken id k where
  record r found := by
    obtain ⟨r', found', status⟩ := running_of_opens sound.working (.inr reopens)
    obtain rfl := Option.some.inj (found.symm.trans found')
    simp only [status, ne_eq, reduceCtorEq, not_false_eq_true]
  others k' differ := by
    rintro ⟨c, call, arms⟩
    rw [(fixed_move t _).2.1] at arms
    rcases call_of_move call with call | begun | ⟨same, -⟩
    · exact others k' differ ⟨c, call, arms⟩
    · exact Move.noConfusion begun
    · exact differ (Move.call.inj same).symm

/-! ## Everybody who is past the reading -/

/-- Operations do not remove records. -/
theorem there_of_call (working : t.service.outage = none)
    (there : (t.service.records.get? id).isSome) :
    ((t.move (.call k)).service.records.get? id).isSome := by
  have moved := record_move working (.call k) id
  generalize (t.move (.call k)).service.records.get? id = found at moved
  cases moved with
  | kept => exact there
  | opened => rfl
  | saved move => exact Move.noConfusion move
  | failed move => exact Move.noConfusion move

/-- An operation that is past the reading comes to its launch by its own steps. -/
theorem Armed.comes (working : t.service.outage = none) (there : (t.service.records.get? id).isSome)
    (armed : t.Armed id k) : ∃ n w run, (t.moves (List.replicate n (.call k))).calls[k]?
      = some (.launch id w (.resume run)) := by
  obtain ⟨c, call, arms⟩ := armed
  induction bound : c.bound using Nat.strongRecOn generalizing t c with
  | ind bound ih =>
    subst bound
    rcases arms.step working there with ⟨w, run, rfl⟩ | next
    · exact ⟨0, w, run, call⟩
    · have unfinished : c.result? = none := by
        cases c <;> first | rfl | exact arms.elim
      obtain ⟨_, workflows, outage⟩ := fixed_move t (.call k)
      obtain ⟨n, w, run, launch⟩ :=
        ih _ (Call.bound_step_lt t.service c unfinished) (outage.trans working)
        (there_of_call working there) _ (call_move call).1 (workflows ▸ next) rfl
      exact ⟨n + 1, w, run, launch⟩

/-- Operations that do not take a step stay where they are. -/
theorem call_of_idle {c : Call} (call : t.calls[k]? = some c) (idle : ∀ m ∈ ms, m ≠ .call k) :
    (t.moves ms).calls[k]? = some c := by
  induction ms generalizing t with
  | nil => exact call
  | cons m ms ih =>
    exact ih (call_of_ne call (idle m List.mem_cons_self)) fun m' hm =>
      idle m' (List.mem_cons_of_mem m hm)

/-- An operation that enters its run launches it in the next step. -/
theorem relaunches_of_enter {mode : RunMode} {w : Workflow} {run : Run}
    (call : t.calls[k]? = some (.enter id mode w (.resume run))) :
    (t.move (.call k)).Relaunches id k (.call k) ∧
      (((t.move (.call k)).move (.call k)).service.active.get? id).isSome := by
  obtain ⟨next, service⟩ := call_move call
  have entry : ((t.move (.call k)).service.active.get? id).isSome := by
    rw [service]
    simp only [Call.step, Service.enter, Named.get?_insert_self, Option.isSome_some]
  obtain ⟨move, k', j, w, run, launches, rest⟩ := relaunches_of_entry next entry
  obtain ⟨-, -, -, kept, -⟩ := launches.entry
  exact ⟨⟨move, k', j, w, run, launches, rest⟩, kept ▸ entry⟩

/-- **Whoever is past the reading when an operation marks the record can launch the run beside
it.** -/
theorem both_relaunched {k' : Nat} (working : t.service.outage = none) (reopens : t.Reopens id k)
    (differ : k' ≠ k) (armed : t.Armed id k') :
    ∃ b, (∀ m ∈ b, ∃ k, m = .call k) ∧ (t.move (.call k)).Relaunched id k b ∧
      (t.move (.call k)).Relaunched id k' b := by
  obtain ⟨mode, w, run, enters⟩ := enters_of_reopens working reopens
  obtain ⟨c, call, arms⟩ := armed
  have other : (t.move (.call k)).Armed id k' :=
    ⟨c, call_of_ne call fun same => differ (Move.call.inj same).symm, (fixed_move t _).2.1 ▸ arms⟩
  obtain ⟨n, w', run', launch⟩ :=
    other.comes ((fixed_move t _).2.2.trans working) (there_of_call working reopens.2)
  -- The other one goes up to its launch, this one enters and launches, and then the other one
  -- launches.
  have apart : ∀ m ∈ List.replicate n (Move.call k'), m ≠ .call k := by
    intro m hm same
    exact differ (Move.call.inj ((List.eq_of_mem_replicate hm).symm.trans same))
  obtain ⟨first, entry⟩ := relaunches_of_enter (call_of_idle enters apart)
  have apart' : ∀ m ∈ [Move.call k, .call k], m ≠ .call k' := by
    intro m hm same
    have own : m = .call k := by simpa using hm
    exact differ (Move.call.inj (own.symm.trans same)).symm
  have waits := call_of_idle launch apart'
  have second := relaunches_of_entry waits entry
  refine ⟨List.replicate n (.call k') ++ [.call k, .call k, .call k'], ?_, ?_, ?_⟩
  · intro m hm
    rcases List.mem_append.1 hm with hm | hm
    · exact ⟨k', List.eq_of_mem_replicate hm⟩
    · simp only [List.mem_cons, List.not_mem_nil, or_false] at hm
      rcases hm with rfl | rfl | rfl <;> exact ⟨_, rfl⟩
  · exact happens_append.2 (.inr (happens_cons.2 (.inr (happens_cons.2 (.inl first)))))
  · exact happens_append.2
      (.inr (happens_cons.2 (.inr (happens_cons.2 (.inr (happens_cons.2 (.inl second)))))))

/-- An operation that is about to mark the record has launched nothing. -/
theorem not_relaunched_of_reopens (reopens : (t.moves ms).Reopens id k) :
    ¬ t.Relaunched id k ms := by
  rintro ⟨b, m, c, rfl, relaunches⟩
  obtain ⟨⟨record, w, here⟩, -⟩ := reopens
  obtain ⟨id', w', request, -, finished⟩ := relaunches.by.call
  obtain ⟨stays, -⟩ := finished_moves finished c
  rw [moves_append, moves_cons] at here
  exact Call.noConfusion (Option.some.inj (here.symm.trans stays))

/-- An operation that has not come to its launch launches nothing. -/
theorem not_relaunches_of_call {c : Call} (call : t.calls[k]? = some c)
    (early : ∀ id w request, c ≠ .launch id w request) (k' : Nat) :
    ¬ t.Relaunches id k' (.call k) := by
  intro relaunches
  obtain rfl := Move.call.inj relaunches.1
  obtain ⟨id', w, request, here, -⟩ := relaunches.by.call
  exact early id' w request (Option.some.inj (call.symm.trans here))

/-- **If nobody else is past the reading when an operation marks the record, nobody else launches
the run.** -/
theorem relaunched_of_alone {a b : List Move} {k' : Nat} (sound : (t.moves a).Sound)
    (reopens : (t.moves a).Reopens id k) (none : ∀ k', ¬ t.Relaunched id k' a)
    (others : ∀ k', k' ≠ k → ¬ (t.moves a).Armed id k') (proper : Proper b)
    (unsaved : t.Never (fun t m => t.SavesWaiting id m) (a ++ .call k :: b))
    (relaunched : t.Relaunched id k' (a ++ .call k :: b)) : k' = k := by
  obtain ⟨-, unsaved⟩ := never_cons.1 (never_append.1 unsaved).2
  rcases happens_append.1 relaunched with before | after
  · exact absurd before (none k')
  · rcases happens_cons.1 after with now | after
    · obtain ⟨⟨record, w, call⟩, -⟩ := reopens
      exact absurd now (not_relaunches_of_call call (fun _ _ _ => Call.noConfusion) k')
    · have taken := taken_of_reopens sound reopens others
      exact taken.relaunched (sound.move fun c same => Move.noConfusion same) proper unsaved after

/-- Steps of operations begin no operation. -/
theorem proper_of_calls (calls : ∀ m ∈ ms, ∃ k, m = .call k) : Proper ms := by
  intro c hc
  obtain ⟨_, same⟩ := calls _ hc
  exact Move.noConfusion same

/-- Only a step of a job saves a run. -/
theorem unsaved_of_idle (idle : ∀ k, .job k ∉ ms) (t : Traffic) :
    t.Never (fun t m => t.SavesWaiting id m) ms := by
  refine never_of_forall fun m hm t saves => ?_
  obtain ⟨k, _, _, _, _, rfl, -⟩ := saves
  exact idle k hm

/-! ## At most once -/

/-- **When a run that waits is resumed at most once.** An operation marks the record of an id, and
no run of the id has been saved as waiting for some time. Whatever comes until one is, at most one
operation launches the run in all this time, exactly if nobody has launched it before, and nobody
else is past the reading at this moment. An operation that resumes a run has launched it when it
gives its id, and has launched nothing when it fails. -/
theorem resumed_once_iff {pre a : List Move} (begun : t.Begun) (proper : Proper (pre ++ a))
    (calm : (t.moves pre).Never (fun t m => t.SavesWaiting id m) a)
    (reopens : (t.moves (pre ++ a)).Reopens id k) :
    ((∀ b, Proper b → (t.moves pre).Never (fun t m => t.SavesWaiting id m) (a ++ .call k :: b) →
        ∀ k₁ k₂, (t.moves pre).Relaunched id k₁ (a ++ .call k :: b) →
          (t.moves pre).Relaunched id k₂ (a ++ .call k :: b) → k₁ = k₂) ↔
      (∀ k', ¬ (t.moves pre).Relaunched id k' a) ∧
        ∀ k', k' ≠ k → ¬ (t.moves (pre ++ a)).Armed id k') ∧
    ∀ (u : Traffic) k' ms result, u.calls[k']? = some (.resume id) →
      (u.moves ms).calls[k']? = some (.finished result) →
        (result = .ok id ∧ u.Relaunched id k' ms) ∨
          (∃ e, result = .error e) ∧ ¬ u.Happens (fun t m => t.LaunchesBy k' m) ms := by
  have sound := begun.sound.moves proper
  rw [moves_append] at reopens sound ⊢
  set s := t.moves pre
  refine ⟨⟨fun once => ?_, ?_⟩, fun u k' ms result call done => resolved ⟨_, call, rfl⟩ done⟩
  -- Whoever comes past the reading launches, in one of the futures in which only the operations
  -- move on; none of these saves the run as waiting, so `once` speaks of them.
  · have apart : ∀ b, (∀ m ∈ b, ∃ k, m = .call k) →
        ∀ k₁ k₂, s.Relaunched id k₁ (a ++ .call k :: b) → s.Relaunched id k₂ (a ++ .call k :: b) →
        k₁ = k₂ := by
      intro b calls
      refine once b (proper_of_calls calls)
        (never_append.2 ⟨calm, unsaved_of_idle (fun k' hk => ?_) _⟩)
      rcases List.mem_cons.1 hk with same | later
      · exact Move.noConfusion same
      · obtain ⟨_, same⟩ := calls _ later
        exact Move.noConfusion same
    have later : ∀ {b k'}, ((s.moves a).move (.call k)).Relaunched id k' b →
        s.Relaunched id k' (a ++ .call k :: b) :=
      fun relaunched => happens_append.2 (.inr (happens_cons.2 (.inr relaunched)))
    refine ⟨fun k' relaunched => ?_, fun k' differ armed => ?_⟩
    · -- The operation that marks the record can launch the run too.
      obtain ⟨mode, w, run, enters⟩ := enters_of_reopens sound.working reopens
      obtain ⟨first, -⟩ := relaunches_of_enter enters
      have own : k' = k := by
        refine apart [.call k, .call k] (fun m hm => ⟨k, by simpa using hm⟩) k' k
          (happens_append.2 (.inl relaunched))
          (later (happens_cons.2 (.inr (happens_cons.2 (.inl first)))))
      exact not_relaunched_of_reopens reopens (own ▸ relaunched)
    · obtain ⟨b, calls, first, second⟩ := both_relaunched sound.working reopens differ armed
      exact differ (apart b calls k' k (later second) (later first))
  -- Conversely the operation alone can launch, whatever comes.
  · rintro ⟨none, others⟩ b properb quiet k₁ k₂ first second
    have own := relaunched_of_alone sound reopens none others properb quiet first
    exact own.trans (relaunched_of_alone sound reopens none others properb quiet second).symm

end Traffic

/-! ## A run that is resumed twice -/

namespace Detour

/-- The run is started and pauses, and its job leaves the table. -/
def settled : List Move := starts ++ pausing ++ [.job 0, .job 0]

/-- An operation reads the record and loads the workflow. -/
def reading : List Move := [.begin (.resume "run"), .call 1, .call 1]

/-- Two operations read the record before one of them marks it; then each goes on to its launch. -/
def race : List Move :=
  [.begin (.resume "run"), .begin (.resume "run"), .call 1, .call 2, .call 1, .call 2,
    .call 1, .call 1, .call 1, .call 2, .call 2, .call 2]

theorem proper_resuming (ms : List Move) (resumes : ∀ c, .begin c ∈ ms → c = .resume "run") :
    Traffic.Proper (settled ++ ms) := by
  intro c hc
  rcases List.mem_append.1 hc with first | later
  · simp only [settled, starts, pausing, List.cons_append, List.nil_append, List.mem_cons,
      Move.begin.injEq, reduceCtorEq, List.not_mem_nil, or_false] at first
    exact first ▸ .start ..
  · exact resumes c later ▸ .resume _

theorem reopens : (idle.moves (settled ++ reading)).Reopens "run" 1 := ⟨⟨_, _, rfl⟩, rfl⟩

/-- Reading launches nothing. -/
theorem not_relaunched (k : Nat) : ¬ (idle.moves settled).Relaunched "run" k reading := by
  have read : ((idle.moves settled).move (.begin (.resume "run"))).calls[1]? = some (.read "run") :=
    rfl
  have load : ∃ record,
      (((idle.moves settled).move (.begin (.resume "run"))).move (.call 1)).calls[1]?
      = some (.load "run" record) := ⟨_, rfl⟩
  obtain ⟨record, load⟩ := load
  rw [Traffic.Relaunched, reading, Traffic.happens_cons, Traffic.happens_cons, Traffic.happens_cons]
  rintro (begins | reads | loads | none)
  · exact Move.noConfusion begins.1
  · exact Traffic.not_relaunches_of_call read (fun _ _ _ => Call.noConfusion) k reads
  · exact Traffic.not_relaunches_of_call load (fun _ _ _ => Call.noConfusion) k loads
  · exact Traffic.not_happens_nil none

/-- Nobody else has read the record. -/
theorem not_armed (k : Nat) (differ : k ≠ 1) :
    ¬ (idle.moves (settled ++ reading)).Armed "run" k := by
  rintro ⟨c, call, arms⟩
  have calls : ∃ c, (idle.moves (settled ++ reading)).calls = [.finished (.ok "run"), c] := ⟨_, rfl⟩
  obtain ⟨_, calls⟩ := calls
  rw [calls] at call
  match k, call with
  | 0, call =>
    obtain rfl := Option.some.inj call
    exact arms
  | 1, _ => exact differ rfl

end Detour

/-- The run that waits is resumed by one operation, and by no other one until it is saved as waiting
again. -/
theorem resumed_alone : (Detour.idle.moves (Detour.settled ++ Detour.reading)).Reopens "run" 1 ∧
    ∀ b, Traffic.Proper b →
      (Detour.idle.moves Detour.settled).Never (fun t m => t.SavesWaiting "run" m)
      (Detour.reading ++ .call 1 :: b) → ∀ k₁ k₂,
      (Detour.idle.moves Detour.settled).Relaunched "run" k₁ (Detour.reading ++ .call 1 :: b) →
        (Detour.idle.moves Detour.settled).Relaunched "run" k₂ (Detour.reading ++ .call 1 :: b) →
          k₁ = k₂ := by
  have proper : Traffic.Proper (Detour.settled ++ Detour.reading) :=
    Detour.proper_resuming _ fun c hc => by simpa [Detour.reading] using hc
  have once :=
    Traffic.resumed_once_iff Detour.begun proper
    (Traffic.unsaved_of_idle (by simp [Detour.reading]) _)
    Detour.reopens
  exact ⟨Detour.reopens, once.1.2 ⟨Detour.not_relaunched, Detour.not_armed⟩⟩

/-- **A run that is resumed twice.** Two operations read the record before one of them marks it.
Both launch the run, although it has been saved as waiting only once. -/
theorem resumed_twice : Detour.idle.Begun ∧ Traffic.Proper (Detour.settled ++ Detour.race) ∧
    (∃ r, (Detour.idle.moves Detour.settled).service.records.get? "run" = some r ∧
      r.status = .waiting) ∧
    (Detour.idle.moves Detour.settled).Never (fun t m => t.SavesWaiting "run" m) Detour.race ∧
    (Detour.idle.moves Detour.settled).Relaunched "run" 1 Detour.race ∧
    (Detour.idle.moves Detour.settled).Relaunched "run" 2 Detour.race := by
  refine ⟨Detour.begun, Detour.proper_resuming _ fun c hc => by simpa [Detour.race] using hc,
    ⟨_, rfl, rfl⟩, Traffic.unsaved_of_idle (by simp [Detour.race]) _, ?_, ?_⟩
  · exact ⟨Detour.race.take 8, .call 1, Detour.race.drop 9, rfl,
      Traffic.relaunches_of_entry rfl rfl⟩
  · exact ⟨Detour.race.take 11, .call 2, [], rfl, Traffic.relaunches_of_entry rfl rfl⟩

end Conveyor
