/-
Which entry of the table a run is stopped by.

A job takes its token from the table when it is launched, and never looks at the table again. The
table has one entry for an id, and an id is used again when its run is resumed. So the entry of a
job's id is the job's own from its launch on, until a move touches it; after that it never is again,
since a token that is given out later is another one (`reaches_moves`).

A run that pauses is on record as waiting before its job has left the table. If it is resumed in
between, the job that is done removes the entry of the run that has just been launched, and nobody
can stop that run any more. The same holds of two operations that resume a run at once. That is all
there is to it: a run can be stopped, and alone, exactly if no other run of its id was registered,
launched or cleaned up meanwhile (`guards_moves`).
-/
import Conveyor.Proofs.Engine.Pause
import Conveyor.Proofs.Service.Table

set_option autoImplicit false

namespace Conveyor

namespace Service

variable {s : Service} {j : Job}

/-- A stop of the job's id finds its token. -/
def Reaches (s : Service) (j : Job) : Prop :=
  ∃ entry, s.active.get? j.id = some entry ∧ entry.token = j.token

/-- No job but the one at a position has the token of a job. -/
def Alone (s : Service) (k : Nat) (j : Job) : Prop :=
  ∀ k' j', s.jobs[k']? = some j' → j'.token = j.token → k' = k

/-- A stop of the job's id finds its token, which no other job has. -/
structure Guards (s : Service) (k : Nat) (j : Job) : Prop where
  reaches : s.Reaches j
  alone : s.Alone k j

/-- A stop that finds the token of a job cancels it, and nothing else. -/
theorem stop_reaches (reaches : s.Reaches j) :
    ∃ entry, s.stop j.id = (some entry, (s.leave j.id).cancel j.token) := by
  obtain ⟨entry, found, token⟩ := reaches
  refine ⟨entry, ?_⟩
  rw [stop, found, ← token]

end Service

namespace Traffic

variable {t : Traffic} {m : Move} {ms : List Move} {id : String} {k : Nat} {j : Job}
  {P : Traffic → Move → Prop}

/-! ## What never happens on the way -/

/-- None of some moves is of a kind; whether it is may depend on what has come before it. -/
def Never (t : Traffic) (P : Traffic → Move → Prop) (ms : List Move) : Prop :=
  ∀ a m b, ms = a ++ m :: b → ¬ P (t.moves a) m

theorem moves_cons (t : Traffic) (m : Move) (ms : List Move) :
    t.moves (m :: ms) = (t.move m).moves ms := rfl

theorem never_nil : t.Never P [] := by
  intro a m b split
  exact absurd split.symm (by simp)

theorem never_cons : t.Never P (m :: ms) ↔ ¬ P t m ∧ (t.move m).Never P ms := by
  constructor
  · intro never
    exact ⟨never [] m ms rfl, fun a m' b split => never (m :: a) m' b (by rw [split]; rfl)⟩
  · rintro ⟨first, rest⟩ a m' b split
    cases a with
    | nil =>
      obtain ⟨rfl, -⟩ := List.cons.inj split
      exact first
    | cons m'' a =>
      obtain ⟨rfl, tail⟩ := List.cons.inj split
      exact rest a m' b tail

/-- No move touches the entry of an id. -/
def Untouched (t : Traffic) (id : String) (ms : List Move) : Prop :=
  t.Never (fun t m => t.Touches id m) ms

/-! ## The own entry -/

/-- The entry of a job's id is its own after a move if it was before, and the move does not touch
it. -/
theorem reaches_move (issued : j.token < t.service.tokens) (m : Move) :
    (t.move m).service.Reaches j ↔ t.service.Reaches j ∧ ¬ t.Touches j.id m := by
  have moved := entry_move t m j.id
  rw [Service.Reaches]
  generalize (t.move m).service.active.get? j.id = found at moved
  cases moved with
  | kept quiet => exact ⟨fun reaches => ⟨reaches, quiet⟩, And.left⟩
  | registered registers token =>
    refine ⟨?_, fun quiet => absurd (.inl registers) quiet.2⟩
    rintro ⟨entry, here, same⟩
    obtain rfl := Option.some.inj here
    omega
  | removed touched =>
    refine ⟨?_, fun quiet => absurd (.inr touched) quiet.2⟩
    rintro ⟨entry, none, _⟩
    simp only [reduceCtorEq] at none

/-- **The entry of a job's id is its own until it is touched, and never again after that.** -/
theorem reaches_moves (issued : j.token < t.service.tokens) (ms : List Move) :
    (t.moves ms).service.Reaches j ↔ t.service.Reaches j ∧ t.Untouched j.id ms := by
  induction ms generalizing t with
  | nil => exact ⟨fun reaches => ⟨reaches, never_nil⟩, And.left⟩
  | cons m ms ih =>
    rw [moves_cons, Untouched, never_cons, ih (Nat.lt_of_lt_of_le issued (tokens_move t m).1),
      reaches_move issued m, and_assoc]
    rfl

theorem tokens_moves (t : Traffic) (ms : List Move) :
    t.service.tokens ≤ (t.moves ms).service.tokens := by
  induction ms generalizing t with
  | nil => exact Nat.le_refl _
  | cons m ms ih => exact Nat.le_trans (tokens_move t m).1 (ih (t.move m))

theorem Issued.moves (issued : Issued t.service) (ms : List Move) :
    Issued (t.moves ms).service := by
  induction ms generalizing t with
  | nil => exact issued
  | cons m ms ih => exact ih (issued.move m)

/-- A job stays what it is, and stays away from the table once it has left it. -/
theorem job_moves (job : t.service.jobs[k]? = some j) (ms : List Move) : ∃ j',
    (t.moves ms).service.jobs[k]? = some j' ∧ j'.id = j.id ∧ j'.token = j.token ∧
      (j.stage.Over → j'.stage.Over) := by
  induction ms generalizing t j with
  | nil => exact ⟨j, job, rfl, rfl, id⟩
  | cons m ms ih =>
    obtain ⟨j₁, job₁, id₁, token₁, past₁⟩ := job_move job m
    obtain ⟨j₂, job₂, id₂, token₂, past₂⟩ := ih job₁
    exact ⟨j₂, job₂, id₂.trans id₁, token₂.trans token₁, fun past => past₂ (past₁ (.inl past))⟩

/-! ## Alone under an id -/

/-- The move has to do with another run of an id than the job at a position: it is registered,
launched, or cleaned up. -/
def Meddles (t : Traffic) (id : String) (k : Nat) (m : Move) : Prop :=
  t.Registers id m ∨ (∃ k' j', t.Launches m k' j' ∧ j'.id = id) ∨ ∃ k', k' ≠ k ∧ t.Clears id k' m

/-- A job was stopped: at that moment the entry of its id was its own. -/
def Stopped (t : Traffic) (j : Job) (ms : List Move) : Prop :=
  ∃ a b, ms = a ++ .stop j.id :: b ∧ (t.moves a).service.Reaches j

/-- Another job with the token of a job stays. -/
theorem not_guards_of_shared {j' : Job} {k' : Nat} (job : t.service.jobs[k']? = some j')
    (token : j'.token = j.token) (differ : k' ≠ k) (ms : List Move) :
    ¬ (t.moves ms).service.Guards k j := by
  intro guards
  obtain ⟨j'', job', _, token', _⟩ := job_moves job ms
  exact differ (guards.alone k' j'' job' (token'.trans token))

/-- What has to do with another run of its id takes from a job that it can be stopped alone. -/
theorem not_guards_of_meddles (issued : Issued t.service)
    (job : ∃ j', t.service.jobs[k]? = some j' ∧ j'.token = j.token)
    (reaches : t.service.Reaches j) (meddles : t.Meddles j.id k m) (ms : List Move) :
    ¬ ((t.move m).moves ms).service.Guards k j := by
  obtain ⟨j₀, hj₀, token₀⟩ := job
  have before : j.token < t.service.tokens := token₀ ▸ issued.jobs j₀ (List.mem_of_getElem? hj₀)
  have after := Nat.lt_of_lt_of_le before (tokens_move t m).1
  -- Once the entry of the id is touched, the job is out of reach for good.
  have lost : t.Touches j.id m → ¬ ((t.move m).moves ms).service.Guards k j := by
    intro touches guards
    have kept := ((reaches_moves after ms).1 guards.reaches).1
    exact ((reaches_move before m).1 kept).2 touches
  rcases meddles with registers | ⟨k', j', launches, same⟩ | ⟨k', _, clears⟩
  · exact lost (.inl registers)
  · -- The other job takes its token from the entry that is still there.
    obtain ⟨entry, found, token, _, _⟩ := launches.entry
    obtain ⟨entry', found', token'⟩ := reaches
    rw [same] at found
    obtain rfl := Option.some.inj (found.symm.trans found')
    have differ : k' ≠ k := by
      have length := (List.getElem?_eq_some_iff.1 hj₀).1
      have := launches.1
      omega
    exact not_guards_of_shared launches.2 (token.symm.trans token') differ ms
  · exact lost (.inr (.inl ⟨k', clears⟩))

/-- What has nothing to do with another run of its id leaves it to a job that it can be stopped
alone, unless the job is stopped or has left the table itself. -/
theorem guards_move (issued : Issued t.service)
    (job : ∃ j', t.service.jobs[k]? = some j' ∧ j'.token = j.token) (guards : t.service.Guards k j)
    (apart : ¬ t.Meddles j.id k m) (own : ¬ t.Clears j.id k m) (free : m ≠ .stop j.id) :
    (t.move m).service.Guards k j := by
  obtain ⟨j₀, hj₀, token₀⟩ := job
  have before : j.token < t.service.tokens := token₀ ▸ issued.jobs j₀ (List.mem_of_getElem? hj₀)
  refine ⟨(reaches_move before m).2 ⟨guards.reaches, ?_⟩, fun k' j' job' token' => ?_⟩
  · rintro (registers | ⟨k', clears⟩ | stops)
    · exact apart (.inl registers)
    · by_cases same : k' = k
      · exact own (same ▸ clears)
      · exact apart (.inr (.inr ⟨k', same, clears⟩))
    · exact free stops
  · rcases job_of_move job' with ⟨j₁, hj₁, _, token₁⟩ | launches
    · exact guards.alone k' j₁ hj₁ (token₁.trans token')
    · -- A job that was launched with this token would be one of this id.
      obtain ⟨entry, found, token, _, _⟩ := launches.entry
      obtain ⟨entry', found', own'⟩ := guards.reaches
      have same := issued.apart _ _ _ _ found found' (token.trans (token'.trans own'.symm))
      exact absurd (.inr (.inl ⟨k', j', launches, same⟩)) apart

/-- **A job that is under way and was not stopped can be stopped, and alone, exactly if nothing had
to do with another run of its id meanwhile.** -/
theorem guards_moves (issued : Issued t.service)
    (job : ∃ j', t.service.jobs[k]? = some j' ∧ j'.token = j.token) (guards : t.service.Guards k j)
    (live : ∃ j', (t.moves ms).service.jobs[k]? = some j' ∧ j'.stage.Live)
    (free : ¬ t.Stopped j ms) :
    (t.moves ms).service.Guards k j ↔ t.Never (fun t m => t.Meddles j.id k m) ms := by
  -- The induction is on the moves. The first one that meddles decides it, and until then the job
  -- stays guarded.
  induction ms generalizing t with
  | nil => exact ⟨fun _ => never_nil, fun _ => guards⟩
  | cons m ms ih =>
    rw [moves_cons, never_cons]
    obtain ⟨j₀, hj₀, token₀⟩ := job
    obtain ⟨j₁, hj₁, _, token₁, past⟩ := job_move hj₀ m
    by_cases meddles : t.Meddles j.id k m
    · have lost := not_guards_of_meddles issued ⟨j₀, hj₀, token₀⟩ guards.reaches meddles ms
      exact ⟨fun found => absurd found lost, fun never => absurd meddles never.1⟩
    -- The job has not cleared its own entry, since it would be past its work then and never live
    -- again.
    · have own : ¬ t.Clears j.id k m := by
        intro clears
        obtain ⟨j₂, hj₂, _, _, stays⟩ := job_moves hj₁ ms
        obtain ⟨j₃, hj₃, alive⟩ := live
        obtain rfl := Option.some.inj (hj₂.symm.trans hj₃)
        have gone := stays (past (.inr ⟨_, clears⟩))
        exact gone.not_live alive
      -- Nor has its id been stopped: the entry is still its own, so that would have stopped the
      -- job.
      have goes : m ≠ .stop j.id := by
        rintro rfl
        exact free ⟨[], ms, rfl, guards.reaches⟩
      have rest := ih (issued.move m) ⟨j₁, hj₁, token₁.trans token₀⟩
        (guards_move issued ⟨j₀, hj₀, token₀⟩ guards meddles own goes) live
        (fun ⟨a, b, split, reaches⟩ => free ⟨m :: a, b, by rw [split]; rfl, reaches⟩)
      rw [rest]
      exact ⟨fun never => ⟨meddles, never⟩, And.right⟩

/-! ## The entry of another run -/

/-- An entry that is not touched stays as it is. -/
theorem entry_of_untouched (quiet : t.Untouched id ms) :
    (t.moves ms).service.active.get? id = t.service.active.get? id := by
  induction ms generalizing t with
  | nil => rfl
  | cons m ms ih =>
    obtain ⟨first, rest⟩ := never_cons.1 quiet
    rw [moves_cons, ih rest]
    have moved := entry_move t m id
    generalize (t.move m).service.active.get? id = found at moved
    cases moved with
    | kept => rfl
    | registered registers => exact absurd (.inl registers) first
    | removed touched => exact absurd (.inr touched) first

/-- The entry of an id is the one that was there all the time, or that of the last registration. -/
theorem entry_moves {entry : ActiveRun} (found : (t.moves ms).service.active.get? id = some entry) :
    (t.Untouched id ms ∧ t.service.active.get? id = some entry) ∨
      ∃ a m b, ms = a ++ m :: b ∧ (t.moves a).Registers id m ∧
        ((t.moves a).move m).Untouched id b := by
  induction ms generalizing t with
  | nil => exact .inl ⟨never_nil, found⟩
  | cons m ms ih =>
    rcases ih found with ⟨quiet, here⟩ | ⟨a, m', b, split, registers, quiet⟩
    · have moved := entry_move t m id
      generalize (t.move m).service.active.get? id = found at moved here
      cases moved with
      | kept first => exact .inl ⟨never_cons.2 ⟨first, quiet⟩, here⟩
      | registered registers => exact .inr ⟨[], m, ms, rfl, registers, quiet⟩
      | removed => simp only [reduceCtorEq] at here
    · exact .inr ⟨m :: a, m', b, by rw [split]; rfl, registers, quiet⟩

/-- The entry of a job's id is that of another run exactly if one was registered since, and the
entry was not touched after that. -/
theorem foreign_iff (issued : j.token < t.service.tokens) (reaches : t.service.Reaches j)
    (ms : List Move) :
    (∃ entry, (t.moves ms).service.active.get? j.id = some entry ∧ entry.token ≠ j.token) ↔
      ∃ a m b, ms = a ++ m :: b ∧ (t.moves a).Registers j.id m ∧
        ((t.moves a).move m).Untouched j.id b := by
  constructor
  · rintro ⟨entry, found, foreign⟩
    -- An entry that is there was there all the time, or was put there by the last registration.
    rcases entry_moves found with ⟨_, here⟩ | registration
    · obtain ⟨own, found', token⟩ := reaches
      obtain rfl := Option.some.inj (here.symm.trans found')
      exact absurd token foreign
    · exact registration
  · rintro ⟨a, m, b, rfl, registers, quiet⟩
    have later : ((t.moves (a ++ m :: b)).service.active.get? j.id)
        = ((t.moves a).move m).service.active.get? j.id := by
      rw [moves, List.foldl_append, List.foldl_cons]
      exact entry_of_untouched quiet
    rw [later]
    have moved := entry_move (t.moves a) m j.id
    generalize ((t.moves a).move m).service.active.get? j.id = found at moved
    have given := Nat.lt_of_lt_of_le issued (tokens_moves t a)
    cases moved with
    | kept first => exact absurd (.inl registers) first
    | registered _ token => exact ⟨_, rfl, by omega⟩
    -- The move that registers is the step of an operation, which touches nothing else.
    | removed touched =>
      obtain ⟨k, _, _, _, enters, _⟩ := registers
      rcases touched with ⟨k', clears, _⟩ | stops
      · exact Move.noConfusion (enters.symm.trans clears)
      · exact Move.noConfusion (enters.symm.trans stops)

/-! ## Runs that can be stopped -/

/-- In the traffic of a service that has begun with nothing under way, a job was just launched. -/
inductive Launched (k : Nat) (j : Job) : Traffic → Prop
  | intro {t : Traffic} {pre : List Move} {m : Move} (table : t.service.active = [])
  (jobs : t.service.jobs = [])
      (launches : (t.moves pre).Launches m k j) : Launched k j ((t.moves pre).move m)

/-- A job that was just launched has the token of the entry of its id. -/
theorem Launched.reaches (launched : Launched k j t) :
    Issued t.service ∧ t.service.jobs[k]? = some j ∧ t.service.Reaches j := by
  cases launched with
  | @intro t pre m table jobs launches =>
    have fresh : Issued t.service := by
      refine ⟨fun id entry found => ?_, fun id id' entry entry' found => ?_, fun j hj => ?_⟩
      · rw [table, Named.get?_nil] at found
        simp only [reduceCtorEq] at found
      · rw [table, Named.get?_nil] at found
        simp only [reduceCtorEq] at found
      · rw [jobs] at hj
        exact absurd hj List.not_mem_nil
    obtain ⟨entry, found, token, same, _⟩ := launches.entry
    exact ⟨(fresh.moves pre).move m, launches.2, entry, by rw [same]; exact found, token⟩

/-- **When a run can be stopped.** A job has the entry of its id when it is launched. As long as its
run is under way and was not stopped, a stop of its id finds its token, and cancels it alone,
exactly if the job was the first with its token and no other run of its id has been registered,
launched or cleaned up since. A stop that finds the token cancels nothing else. What is there under
the id when the job leaves the table is the entry of another run exactly if one was registered
since, and was not touched after that. -/
theorem guarded_iff (launched : Launched k j t) (ms : List Move) :
    t.service.Reaches j ∧
      ((∃ j', (t.moves ms).service.jobs[k]? = some j' ∧ j'.stage.Live) → ¬ t.Stopped j ms →
        ((t.moves ms).service.Guards k j ↔
          t.service.Alone k j ∧ t.Never (fun t m => t.Meddles j.id k m) ms)) ∧
      ((t.moves ms).service.Reaches j → ∃ entry, (t.moves ms).service.stop j.id
        = (some entry, ((t.moves ms).service.leave j.id).cancel j.token)) ∧
      ((∃ entry, (t.moves ms).service.active.get? j.id = some entry ∧ entry.token ≠ j.token) ↔
        ∃ a m b, ms = a ++ m :: b ∧ (t.moves a).Registers j.id m ∧
          ((t.moves a).move m).Untouched j.id b) := by
  obtain ⟨issued, job, reaches⟩ := launched.reaches
  have given := issued.jobs j (List.mem_of_getElem? job)
  refine ⟨reaches, fun live free => ?_, Service.stop_reaches, foreign_iff given reaches ms⟩
  by_cases alone : t.service.Alone k j
  · rw [guards_moves issued ⟨j, job, rfl⟩ ⟨reaches, alone⟩ live free]
    exact ⟨fun never => ⟨alone, never⟩, And.right⟩
  · -- Whoever has the token already keeps it.
    obtain ⟨k', shared⟩ := not_forall.1 alone
    obtain ⟨j', shared⟩ := not_forall.1 shared
    obtain ⟨job', shared⟩ := Classical.not_imp.1 shared
    obtain ⟨token, differ⟩ := Classical.not_imp.1 shared
    exact ⟨fun guards => absurd guards (not_guards_of_shared job' token differ ms),
      fun h => absurd h.1 alone⟩

end Traffic

/-! ## A run that is resumed too early -/

namespace Detour

/-- A service that knows the detour, whose nodes ask for a pause. -/
def service : Service where
  engine := engine nap
  recordId _ := "run"
  workflows := [("detour", workflow)]

/-- The run is started: its record is created, it enters the table, and its job is launched. -/
def starts : List Move :=
  [.begin (.start workflow .manual (some "Start") none), .call 0, .call 0, .call 0]

/-- Its job goes on until the record says that the run waits; only the table does not know yet. -/
def pausing : List Move := [.job 0, .job 0, .job 0, .job 0]

/-- The run is resumed: its record is read, its workflow loaded, its record marked as running, and
it enters the table. -/
def resumes : List Move := [.begin (.resume "run"), .call 1, .call 1, .call 1, .call 1]

/-- All this, up to the launch. -/
def before : Traffic := ({ service := service } : Traffic).moves (starts ++ pausing ++ resumes)

/-- The run that was resumed is launched. -/
def after : Traffic := before.move (.call 1)

/-- The job of the run that was started, which has still to leave the table. -/
def starter : Job := after.service.jobs[0]

/-- The job of the run that was resumed. -/
def resumed : Job := after.service.jobs[1]

theorem jobs : after.service.jobs = [starter, resumed] := rfl

theorem launched : Traffic.Launched 1 resumed after := .intro rfl rfl ⟨rfl, rfl⟩

/-- A single move that is no stop stops nothing. -/
theorem not_stopped {t : Traffic} {j : Job} (k : Nat) : ¬ t.Stopped j [.job k] := by
  rintro ⟨a, b, split, _⟩
  cases a with
  | nil => exact Move.noConfusion (List.cons.inj split).1
  | cons m a => exact absurd (List.cons.inj split).2.symm (by simp)

end Detour

/-- The run that was resumed can be stopped alone, also after its first step. -/
theorem resumed_guarded : (Detour.after.moves [.job 1]).service.Guards 1 Detour.resumed := by
  have live : ∃ j', (Detour.after.moves [.job 1]).service.jobs[1]? = some j' ∧ j'.stage.Live :=
    ⟨_, rfl, trivial⟩
  have alone : Detour.after.service.Alone 1 Detour.resumed := by
    intro k' j' job token
    rw [Detour.jobs] at job
    match k', job with
    | 0, job =>
      obtain rfl := Option.some.inj job
      exact absurd token (by decide)
    | 1, _ => rfl
  have apart : ¬ Detour.after.Meddles Detour.resumed.id 1 (.job 1) := by
    rintro (⟨k', _, _, _, enters, _⟩ | ⟨k', j', launches, _⟩ | ⟨k', differ, clears, _⟩)
    · exact Move.noConfusion enters
    · obtain ⟨_, _, _, _, grown⟩ := launches.entry
      have length : 2 = 2 + 1 := (congrArg List.length grown).trans List.length_append
      exact absurd length (by decide)
    · exact differ (Move.job.inj clears).symm
  exact ((Traffic.guarded_iff Detour.launched [.job 1]).2.1 live (Detour.not_stopped 1)).2
    ⟨alone, Traffic.never_cons.2 ⟨apart, Traffic.never_nil⟩⟩

/-- **A run that nobody can stop.** If the first job leaves the table only after the run was resumed
and launched again, it removes the entry of the second: that run is under way, it was not stopped,
and a stop does not find it. -/
theorem stop_misses : Traffic.Launched 1 Detour.resumed Detour.after ∧
    Detour.after.service.Reaches Detour.resumed ∧
    (∃ j', (Detour.after.moves [.job 0]).service.jobs[1]? = some j' ∧ j'.stage.Live) ∧
    ¬ Detour.after.Stopped Detour.resumed [.job 0] ∧
    ¬ (Detour.after.moves [.job 0]).service.Reaches Detour.resumed ∧
    ((Detour.after.moves [.job 0]).service.stop "run").1 = none := by
  refine ⟨Detour.launched, Detour.launched.reaches.2.2, ⟨_, rfl, trivial⟩,
    Detour.not_stopped 0, ?_, rfl⟩
  rintro ⟨entry, found, _⟩
  have empty : (Detour.after.moves [.job 0]).service.active = [] := rfl
  rw [empty, Named.get?_nil] at found
  simp only [reduceCtorEq] at found

end Conveyor
