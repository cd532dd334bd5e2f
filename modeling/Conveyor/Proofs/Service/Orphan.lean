/-
Records that stay marked as running.

An operation marks the record of its run as running before it launches the run, and nobody but a job
gives it another status. In between, the only trace of the run is its entry in the table. If the
entry is removed, by a stop or by another job of the same id that is done, there is nothing to
launch any more: the operation fails, and the record says for ever that the run is running.

That this is the only way is shown by following what has become of the operation that was the last
to open the record, as long as nobody has written it (`Fate`): it is still on its way, or its job
has still to write the record, or it has lost its entry. When nothing is under way any more, the
last of these is left.
-/
import Conveyor.Proofs.Service.Ownership
import Mathlib.Data.List.Induction

set_option autoImplicit false

namespace Conveyor

/-- The record of its run does not know of the job: its run has not ended, or its failure is not on
record. -/
def JobStage.Pending : JobStage → Prop
  | launched _ | running .. | returned (.error _) => True
  | returned (.ok _) | recorded _ | ended _ | collected => False

namespace Traffic

variable {t : Traffic} {m : Move} {ms : List Move} {id : String} {k : Nat} {j : Job}

/-- By the move the entry of an id is removed: it is stopped, or a job of this id is done. -/
def Removes (t : Traffic) (id : String) (m : Move) : Prop := (∃ k, t.Clears id k m) ∨ m = .stop id

/-- By the move an operation that is about to launch its run loses its entry. -/
def Loses (t : Traffic) (id : String) (k : Nat) (m : Move) : Prop :=
  t.Removes id m ∧ ∃ w request, t.calls[k]? = some (.launch id w request)

/-- By the move a job writes the record of an id. -/
def Records (t : Traffic) (id : String) (m : Move) : Prop := ∃ k, m = .job k ∧ t.Writes id k

/-! ## Marked as running -/

/-- A record that says that its run is running says so until a job writes it. -/
theorem running_of_unwritten (working : t.service.outage = none)
    (running : ∃ r, t.service.records.get? id = some r ∧ r.status = .running)
    (never : t.Never (fun t m => t.Records id m) ms) :
    ∃ r, (t.moves ms).service.records.get? id = some r ∧ r.status = .running := by
  induction ms generalizing t with
  | nil => exact running
  | cons m ms ih =>
    obtain ⟨first, rest⟩ := never_cons.1 never
    refine ih ((fixed_move t m).2.2.trans working) ?_ rest
    have moved := record_move working m id
    generalize (t.move m).service.records.get? id = found at moved
    cases moved with
    | kept => exact running
    | opened move opens status => exact ⟨_, rfl, status⟩
    | @saved k j x p c move job stage same =>
      exact absurd ⟨k, move, j, job, .inl ⟨x, p, c, stage, same⟩⟩ first
    | @failed k j f move job stage same =>
      exact absurd ⟨k, move, j, job, .inr ⟨f, stage, same⟩⟩ first

/-! ## What has become of the operation -/

/-- What has become of an operation that has opened the record of an id, if no job has written the
record since; `lost` says that it has lost its entry when it was about to launch the run. -/
inductive Fate (t : Traffic) (id : String) (k : Nat) (lost : Prop) : Prop
  | entering {mode : RunMode} {w : Workflow} {request : Request}
      (call : t.calls[k]? = some (.enter id mode w request))
  | launching {w : Workflow} {request : Request} (call : t.calls[k]? = some (.launch id w request))
      (entry : (t.service.active.get? id).isSome ∨ lost)
  | launched {k' : Nat} {j : Job} (job : t.service.jobs[k']? = some j) (own : j.id = id)
    (pending : j.stage.Pending)
  | refused (call : t.calls[k]? = some (.finished (.error (.notRegistered id)))) (lost : lost)

/-- A job whose run is not on record goes on so, or writes the record of its id. -/
theorem pending_move (sound : t.Sound) (ids : t.service.engine.Keeps Run.id)
    (job : t.service.jobs[k]? = some j) (pending : j.stage.Pending) :
    (t.service.jobStep j).1.Pending ∨ t.Writes j.id k := by
  obtain ⟨w, serves⟩ := sound.jobs j (List.mem_of_getElem? job)
  have moved := t.service.jobMoved j
  generalize (t.service.jobStep j).1 = stage, (t.service.jobStep j).2 = s' at moved
  -- The record is written where the run is saved and where the failure is recorded; before that the
  -- run is pending, and after that it is not.
  cases moved with
  | @begun work before =>
    rw [before] at serves
    cases work with
    | host untilCanceled result => exact serves.elim
    | engine w' request =>
      simp only [Service.beginWork]
      split <;> exact .inl trivial
  | went => exact .inl trivial
  | broke => exact .inl trivial
  | @saved x p c before =>
    rw [before] at serves
    exact .inr ⟨j, job, .inl ⟨x, p, c, before, (ids.finish x p c).trans serves.1⟩⟩
  | passed before => exact (before ▸ pending : (JobStage.returned (.ok _)).Pending).elim
  | @failed f before => exact .inr ⟨j, job, .inr ⟨f, before, rfl⟩⟩
  | left before => exact (before ▸ pending : (JobStage.recorded _).Pending).elim
  | rested past => exact .inl pending

/-- **The operation and its job go on until the record is written.** -/
theorem Fate.move {lost : Prop} (fate : t.Fate id k lost) (sound : t.Sound)
    (ids : t.service.engine.Keeps Run.id) (unwritten : ¬ t.Records id m) :
    (t.move m).Fate id k (lost ∨ t.Loses id k m) := by
  -- Only the operation itself takes it from entering to launching, and only the job ends its work.
  cases fate with
  | @entering mode w request call =>
    by_cases own : m = .call k
    · subst own
      obtain ⟨next, service⟩ := call_move call
      refine .launching next (.inl ?_)
      rw [service]
      simp only [Call.step, Service.enter, Named.get?_insert_self, Option.isSome_some]
    · exact .entering (call_of_ne call own)
  | @launching w request call entry =>
    by_cases own : m = .call k
    · subst own
      -- Without its entry the launch is refused, and then the entry was lost before.
      cases found : t.service.active.get? id with
      | some entry => exact .launched (launch_move call found).1.2 rfl trivial
      | none =>
        have next := (call_move call).1
        have refused : t.service.launch id (.engine w request) = .error (.notRegistered id) := by
          rw [Service.launch, found]
        simp only [Call.step, refused] at next
        have lost : lost := entry.resolve_left (by simp [found])
        exact .refused next (.inl lost)
    -- Meanwhile the entry may be replaced or removed, and removing it is the loss.
    · refine .launching (call_of_ne call own) ?_
      have moved := entry_move t m id
      generalize (t.move m).service.active.get? id = found at moved
      cases moved with
      | kept => exact entry.imp_right .inl
      | registered => exact .inl rfl
      | removed by_ => exact .inr (.inr ⟨by_, w, request, call⟩)
  | @launched k' j job same pending =>
    by_cases own : m = .job k'
    · subst own
      rcases pending_move sound ids job pending with pending | writes
      · exact .launched (stage_move job) same pending
      · exact absurd ⟨k', rfl, same ▸ writes⟩ unwritten
    · exact .launched (stage_of_ne job own) same pending
  | refused call lost =>
    by_cases own : m = .call k
    · subst own
      exact .refused (call_move call).1 (.inl lost)
    · exact .refused (call_of_ne call own) (.inl lost)

/-- **Where a record says that its run is running**, an operation has opened it that is still on its
way, or has come to nothing, or has launched a job that has still to write it. -/
theorem fate_of_running (begun : t.Begun)
    (calm : ∀ id r, t.service.records.get? id = some r → r.status ≠ .running)
    (ids : t.service.engine.Keeps Run.id) (statuses : t.service.engine.Keeps Run.status)
    (proper : Proper ms)
    (running : ∃ r, (t.moves ms).service.records.get? id = some r ∧ r.status = .running) :
    ∃ a k b, ms = a ++ .call k :: b ∧ (t.moves a).Opens id k ∧
      ((t.moves a).move (.call k)).Never (fun t m => t.Records id m) b ∧
      (t.moves ms).Fate id k
        (((t.moves a).move (.call k)).Happens (fun t m => t.Loses id k m) b) := by
  -- The induction is from the end: the last move has opened the record, or has left it marked as it
  -- was.
  induction ms using List.reverseRecOn with
  | nil =>
    obtain ⟨r, found, status⟩ := running
    exact absurd status (calm id r found)
  | append_singleton ms m ih =>
    have before : Proper ms := fun c hc => proper c (List.mem_append_left _ hc)
    have sound := begun.sound.moves before
    have engine : (t.moves ms).service.engine = t.service.engine := engine_moves t ms
    rw [moves_concat] at running ⊢
    obtain ⟨r, found, status⟩ := running
    have moved := record_move sound.working m id
    generalize ((t.moves ms).move m).service.records.get? id = left at moved found
    cases moved with
    | kept shut unwritten =>
      obtain ⟨a, k, b, rfl, opens, never, fate⟩ := ih before ⟨r, found, status⟩
      have here : ((t.moves a).move (.call k)).moves b = t.moves (a ++ .call k :: b) := by
        rw [← moves_cons, ← moves_append]
      have quiet : ¬ (t.moves (a ++ .call k :: b)).Records id m :=
        fun ⟨k', job, writes⟩ => unwritten k' job writes
      refine ⟨a, k, b ++ [m], by rw [List.append_assoc, List.cons_append], opens, ?_, ?_⟩
      · rw [never_concat, here]
        exact ⟨never, quiet⟩
      · rw [happens_concat, here]
        exact fate.move sound (engine ▸ ids) quiet
    | @opened k record move opens =>
      subst move
      obtain ⟨mode, w, request, call⟩ := enters_of_opens sound.working opens
      exact ⟨ms, k, [], rfl, opens, never_nil, .entering call⟩
    | @saved k j x p c move job stage same =>
      split at found
      · simp only [reduceCtorEq] at found
      · obtain rfl := Option.some.inj found
        exact absurd status
          ((engine ▸ statuses : (t.moves ms).service.engine.Keeps Run.status).not_running x p c)
    | @failed k j f move job stage same =>
      obtain ⟨r', there, rfl⟩ := Option.map_eq_some_iff.1 found
      cases f <;> simp [Record.withStatus, Failure.status] at status

/-! ## Nothing under way -/

/-- Where nothing is under way, an operation that has opened a record that nobody has written since
has come to nothing. -/
theorem Fate.quiet {lost : Prop} (fate : t.Fate id k lost) (quiet : t.isQuiet = true) :
    t.calls[k]? = some (.finished (.error (.notRegistered id))) ∧ lost := by
  simp only [isQuiet, Bool.and_eq_true, List.all_eq_true] at quiet
  obtain ⟨calls, jobs⟩ := quiet
  cases fate with
  | entering call => exact absurd (calls _ (List.mem_of_getElem? call)) (by simp [Call.bound])
  | launching call => exact absurd (calls _ (List.mem_of_getElem? call)) (by simp [Call.bound])
  | @launched k' j job own pending =>
    have ended := jobs j (List.mem_of_getElem? job)
    cases stage : j.stage with
    | launched => simp [stage] at ended
    | running => simp [stage] at ended
    | returned => simp [stage] at ended
    | recorded => simp [stage] at ended
    | ended => exact (stage ▸ pending : (JobStage.ended _).Pending).elim
    | collected => exact (stage ▸ pending : JobStage.collected.Pending).elim
  | refused call lost => exact ⟨call, lost⟩

/-- **Which records say for ever that a run is running.** Where nothing is under way any more, these
are exactly the records that an operation has opened which then lost its entry when it was about to
launch the run, so that it failed, unless a job has written the record since. -/
theorem orphaned_iff (begun : t.Begun)
    (calm : ∀ id r, t.service.records.get? id = some r → r.status ≠ .running)
    (ids : t.service.engine.Keeps Run.id) (statuses : t.service.engine.Keeps Run.status)
    (proper : Proper ms) (quiet : (t.moves ms).isQuiet = true) (id : String) :
    (∃ r, (t.moves ms).service.records.get? id = some r ∧ r.status = .running) ↔
      ∃ a k b, ms = a ++ .call k :: b ∧ (t.moves a).Opens id k ∧
        ((t.moves a).move (.call k)).Happens (fun t m => t.Loses id k m) b ∧
        (t.moves ms).calls[k]? = some (.finished (.error (.notRegistered id))) ∧
        ((t.moves a).move (.call k)).Never (fun t m => t.Records id m) b := by
  constructor
  · intro running
    obtain ⟨a, k, b, split, opens, never, fate⟩ :=
      fate_of_running begun calm ids statuses proper running
    obtain ⟨failed, lost⟩ := fate.quiet quiet
    exact ⟨a, k, b, split, opens, lost, failed, never⟩
  · rintro ⟨a, k, b, rfl, opens, -, -, never⟩
    have first : Proper a := fun c hc => proper c (List.mem_append_left _ hc)
    have working := (begun.sound.moves first).working
    have running :=
      running_of_unwritten ((fixed_move _ _).2.2.trans working)
      (running_of_opens working opens) never
    rwa [← moves_cons, ← moves_append] at running

end Traffic

/-! ## A run that is stopped too early -/

namespace Detour

/-- A run is registered, and stopped before it is launched. -/
def lost : List Move :=
  [.begin (.start workflow .manual (some "Start") none), .call 0, .call 0, .stop "run", .call 0]

theorem calm : ∀ id r, idle.service.records.get? id = some r → r.status ≠ .running :=
  fun id _ found => absurd (found.symm.trans (blank id)) (Option.some_ne_none _)

theorem proper_lost : Traffic.Proper lost := by
  intro c hc
  simp only [lost, List.mem_cons, Move.begin.injEq, reduceCtorEq, List.not_mem_nil, or_false] at hc
  exact hc ▸ .start ..

end Detour

/-- The run that is stopped before it is launched has lost its entry then. -/
theorem lost_orphaned :
    ∃ a k b, Detour.lost = a ++ .call k :: b ∧ (Detour.idle.moves a).Opens "run" k ∧
    ((Detour.idle.moves a).move (.call k)).Happens (fun t m => t.Loses "run" k m) b ∧
    (Detour.idle.moves Detour.lost).calls[k]? = some (.finished (.error (.notRegistered "run"))) ∧
    ((Detour.idle.moves a).move (.call k)).Never (fun t m => t.Records "run" m) b :=
  (Traffic.orphaned_iff Detour.begun Detour.calm (Detour.keeps _)
    (Detour.keeps _) Detour.proper_lost rfl "run").1
    ⟨_, rfl, rfl⟩

/-- **A run that is running for ever.** A run is stopped after it was registered and before it is
launched. The stop has found it, nothing is under way any more, and its record says that it is
running. -/
theorem stop_orphans : Detour.idle.Begun ∧
    (∀ id r, Detour.idle.service.records.get? id = some r → r.status ≠ .running) ∧
      Traffic.Proper Detour.lost ∧
    (((Detour.idle.moves (Detour.lost.take 3)).service.stop "run").1).isSome ∧
    (Detour.idle.moves Detour.lost).isQuiet = true ∧
    ∃ r, (Detour.idle.moves Detour.lost).service.records.get? "run" = some r ∧
      r.status = .running :=
  ⟨Detour.begun, Detour.calm, Detour.proper_lost, rfl, rfl, _, rfl, rfl⟩

end Conveyor
