/-
Whose record a job writes.

Which record a job writes is decided by its run, and not by the id that the job was launched for.
That these agree has to be shown along the way from the caller to the record: an operation carries
the id of its run from stage to stage, the record that it has read is kept under that id, the job
that it launches asks the engine for a run of that id, and so on (`Traffic.Sound`). Nothing of this
holds of an operation that begins in the middle, so callers begin operations only as they are meant
to be begun (`Call.Begins`).
-/
import Conveyor.Proofs.Service.Records

set_option autoImplicit false

namespace Conveyor

/-! ## Operations and jobs of an id -/

/-- The id of the run that is asked for. -/
def Request.id : Request → String
  | .start id .. | .rerun id .. => id
  | .resume run => run.id

/-- What is prepared is a run of the workflow, under the id that was asked for. -/
theorem Engine.prepare_id {e : Engine} {w : Workflow} {r : Request} {x : Execution} {s : RunState}
    (prepared : e.prepare w r = .ok (x, s)) : x.id = r.id ∧ x.graph.workflow = w := by
  refine ⟨?_, Engine.workflow_of_graph (Engine.prepare_graph prepared).1⟩
  cases r with
  | start id mode startNode items =>
    obtain ⟨g, _, prepared⟩ := Engine.ok_of_bind prepared
    obtain ⟨names, _, prepared⟩ := Engine.ok_of_bind prepared
    obtain ⟨rfl, _⟩ := Prod.mk.inj (Except.ok.inj prepared)
    rfl
  | rerun id mode startNode prior =>
    obtain ⟨g, _, prepared⟩ := Engine.ok_of_bind prepared
    obtain ⟨_, _, prepared⟩ := Engine.ok_of_bind prepared
    obtain ⟨rfl, _⟩ := Prod.mk.inj (Except.ok.inj prepared)
    rfl
  | resume run =>
    rw [Engine.prepare] at prepared
    split at prepared
    · obtain ⟨g, _, prepared⟩ := Engine.ok_of_bind prepared
      obtain ⟨rfl, _⟩ := Prod.mk.inj (Except.ok.inj prepared)
      rfl
    · simp only [reduceCtorEq] at prepared

namespace Call

/-- Operations as callers begin them. -/
inductive Begins : Call → Prop
  | find (workflowId : String) (mode : RunMode) (items : Option Items) :
  Begins (.find workflowId mode items)
  | start (w : Workflow) (mode : RunMode) (startNode : Option String) (items : Option Items) :
      Begins (.start w mode startNode items)
  | rerun (w : Workflow) (mode : RunMode) (startNode : String) (prior : RunData) :
      Begins (.rerun w mode startNode prior)
  | resume (id : String) : Begins (.resume id)

/-- What an operation has in hand belongs to the id that it is about, and a run that it creates is a
new one. -/
def Sound : Call → Prop
  | create _ _ request => ∀ id, (request id).id = id ∧ ∀ run, request id ≠ .resume run
  | load id record | reopen id record _ => record.id = id
  | enter id _ _ request | launch id _ request => request.id = id
  | find .. | read _ | finished _ => True

theorem Begins.sound {c : Call} (begins : c.Begins) : c.Sound := by
  cases begins with
  | find => trivial
  | start => exact fun _ => ⟨rfl, fun _ => Request.noConfusion⟩
  | rerun => exact fun _ => ⟨rfl, fun _ => Request.noConfusion⟩
  | resume => trivial

theorem Sound.step {s : Service} {c : Call} (sound : c.Sound) (keyed : s.records.Keyed) :
    (c.step s).1.Sound := by
  -- What an operation carries along is what it was given or has just read, so only the step that
  -- reads a record needs to know that records have their own id.
  cases c with
  | find workflowId mode items =>
    simp only [Call.step]
    split
    · exact fun _ => ⟨rfl, fun _ => Request.noConfusion⟩
    · trivial
  | create w mode request =>
    simp only [Call.step]
    split
    · exact (sound _).1
    · trivial
  | read id =>
    simp only [Call.step]
    split
    · trivial
    · trivial
    · rename_i record found
      split
      · rw [Service.record?] at found
        split at found
        · simp only [reduceCtorEq] at found
        · exact keyed id record (Except.ok.inj found)
      · trivial
  | load id record =>
    simp only [Call.step]
    split
    · exact sound
    · trivial
  | reopen id record w =>
    simp only [Call.step]
    split
    · exact sound
    · trivial
  | enter id mode w request => exact sound
  | launch id w request =>
    simp only [Call.step]
    split <;> trivial
  | finished result => trivial

end Call

/-- A job at a stage runs a workflow under an id, or has run it. -/
def JobStage.Serves (e : Engine) (id : String) (w : Workflow) : JobStage → Prop
  | launched (.engine w' request) => w' = w ∧ request.id = id
  | launched (.host ..) => False
  | running x _ => x.id = id ∧ x.graph.workflow = w
  | returned result | recorded result | ended result => ∀ run, result = .ok run →
      ∃ x p c, x.id = id ∧ x.graph.workflow = w ∧ run = (e.finish x p c).1
  | collected => True

/-- A job goes on to serve what it serves. -/
theorem JobMoved.serves {s s' : Service} {j : Job} {stage : JobStage} {w : Workflow}
    (moved : JobMoved s j stage s') (serves : j.stage.Serves s.engine j.id w) :
    stage.Serves s.engine j.id w := by
  -- The beginning of the work passes what the job serves on to what is prepared for it, and the end
  -- of the run to the run that is saved; in between nothing about it changes.
  cases moved with
  | @begun work before =>
    rw [before] at serves
    cases work with
    | host untilCanceled result => exact serves.elim
    | engine w' request =>
      obtain ⟨rfl, own⟩ := serves
      simp only [Service.beginWork]
      split
      · rename_i x state prepared
        obtain ⟨id, workflow⟩ := Engine.prepare_id prepared
        exact ⟨id.trans own, workflow⟩
      · intro run failed
        simp only [reduceCtorEq] at failed
  | went before => rw [before] at serves; exact serves
  | broke before =>
    intro run failed
    simp only [reduceCtorEq] at failed
  | saved before =>
    rw [before] at serves
    intro run result
    exact ⟨_, _, _, serves.1, serves.2, (Except.ok.inj result).symm⟩
  | passed before => rw [before] at serves; exact serves
  | failed before => rw [before] at serves; exact serves
  | left before => rw [before] at serves; exact serves
  | rested => exact serves

namespace Traffic

variable {t : Traffic} {m : Move} {ms : List Move} {k : Nat} {j : Job}

/-! ## All along the way -/

/-- Records stay under their own ids. -/
theorem keyed_move (working : t.service.outage = none) (keyed : t.service.records.Keyed)
    (m : Move) : (t.move m).service.records.Keyed := by
  intro id record found
  have moved := record_move working m id
  generalize (t.move m).service.records.get? id = left at moved found
  cases moved with
  | kept => exact keyed id record found
  | opened move opens status own =>
    obtain rfl := Option.some.inj found
    exact own keyed
  | saved move job stage same =>
    split at found
    · simp only [reduceCtorEq] at found
    · obtain rfl := Option.some.inj found
      exact same
  | failed move job stage same =>
    obtain ⟨r, there, rfl⟩ := Option.map_eq_some_iff.1 found
    exact keyed id r there

/-- A launch is the step of an operation that has come to it. -/
theorem Launches.origin (launches : t.Launches m k j) : ∃ k' w request, m = .call k' ∧
    t.calls[k']? = some (.launch j.id w request) ∧ j.stage = .launched (.engine w request) := by
  obtain ⟨rfl, job⟩ := launches
  -- No other move adds a job, so a job at the end of the list is the one that is launched.
  have none : ∀ jobs : List Job, jobs.length = t.service.jobs.length →
      jobs[t.service.jobs.length]? ≠ some j := by
    intro jobs length found
    obtain ⟨h, -⟩ := List.getElem?_eq_some_iff.1 found
    omega
  have moved := moved_move t m
  generalize (t.move m).service = s' at moved job
  cases moved with
  | aside => exact absurd job (none _ rfl)
  | entered => exact absurd job (none _ rfl)
  | @launched k' id w request entry move call found =>
    rw [List.getElem?_concat_length] at job
    obtain rfl := Option.some.inj job
    exact ⟨k', w, request, move, call, rfl⟩
  | worked => exact absurd job (none _ (List.length_modify _ _ _))
  | left => exact absurd job (none _ (List.length_modify _ _ _))
  | @stopped id move =>
    obtain ⟨active, canceled, stops, -, -⟩ := t.service.stop_eq id
    rw [stops] at job
    exact absurd job (none _ rfl)

/-- An operation that has come to its launch launches its run if the run has an entry. -/
theorem launch_move {id : String} {w : Workflow} {request : Request} {entry : ActiveRun}
    (call : t.calls[k]? = some (.launch id w request))
    (found : t.service.active.get? id = some entry) :
    t.Launches (.call k) t.service.jobs.length ⟨id, entry.token, .launched (.engine w request)⟩ ∧
      (t.move (.call k)).calls[k]? = some (.finished (.ok id)) ∧
      (t.move (.call k)).service
        = { t.service with
          jobs := t.service.jobs ++ [⟨id, entry.token, .launched (.engine w request)⟩] } := by
  obtain ⟨next, service⟩ := call_move call
  have done : t.service.launch id (.engine w request) = .ok { t.service with
      jobs := t.service.jobs ++ [⟨id, entry.token, .launched (.engine w request)⟩] } := by
    rw [Service.launch, found]
  simp only [Call.step, done] at next service
  refine ⟨⟨rfl, ?_⟩, next, service⟩
  rw [service, List.getElem?_concat_length]

/-- The record store is in order, operations belong to their ids, and jobs serve theirs. -/
structure Sound (t : Traffic) : Prop where
  working : t.service.outage = none
  keyed : t.service.records.Keyed
  calls : ∀ c ∈ t.calls, c.Sound
  jobs : ∀ j ∈ t.service.jobs, ∃ w, j.stage.Serves t.service.engine j.id w

theorem Sound.move (sound : t.Sound) (begins : ∀ c, m = .begin c → c.Begins) :
    (t.move m).Sound := by
  obtain ⟨engine, -, outage⟩ := fixed_move t m
  -- The calls are those that there were, with one more or with one that has made its step.
  refine ⟨outage.trans sound.working, keyed_move sound.working sound.keyed m, fun c hc => ?_,
    fun j hj => ?_⟩
  · cases m with
    | begin c' =>
      rcases List.mem_append.1 hc with old | new
      · exact sound.calls c old
      · rw [List.mem_singleton.1 new]
        exact (begins c' rfl).sound
    | call k =>
      simp only [Traffic.move] at hc
      split at hc
      · rename_i c' call
        rcases List.mem_or_eq_of_mem_set hc with old | rfl
        · exact sound.calls c old
        · exact (sound.calls c' (List.mem_of_getElem? call)).step sound.keyed
      · exact sound.calls c hc
    | job k => exact sound.calls c hc
    | stop id => exact sound.calls c hc
  · obtain ⟨k, job⟩ := List.mem_iff_getElem?.1 hj
    rw [engine]
    -- A job was there before or has just been launched; one that was there has made its step or
    -- none.
    rcases job_of_move job with ⟨j₀, hj₀, same, -⟩ | launches
    · obtain ⟨w, serves⟩ := sound.jobs j₀ (List.mem_of_getElem? hj₀)
      by_cases own : m = .job k
      · rw [own, stage_move hj₀] at job
        obtain rfl := Option.some.inj job
        exact ⟨w, (t.service.jobMoved j₀).serves serves⟩
      · obtain rfl := Option.some.inj ((stage_of_ne hj₀ own).symm.trans job)
        exact ⟨w, serves⟩
    · obtain ⟨k', w, request, -, call, stage⟩ := launches.origin
      rw [stage]
      exact ⟨w, rfl, sound.calls _ (List.mem_of_getElem? call)⟩

/-- Callers begin only operations that there are. -/
def Proper (ms : List Move) : Prop := ∀ c, .begin c ∈ ms → c.Begins

theorem Sound.moves (sound : t.Sound) (proper : Proper ms) : (t.moves ms).Sound := by
  induction ms generalizing t with
  | nil => exact sound
  | cons m ms ih =>
    have begins : ∀ c, m = .begin c → c.Begins := fun c same => proper c (same ▸ List.mem_cons_self)
    exact ih (sound.move begins) fun c hc => proper c (List.mem_cons_of_mem m hc)

/-- A service that has begun with nothing under way, on a record store that is in order. -/
structure Begun (t : Traffic) : Prop where
  calls : t.calls = []
  jobs : t.service.jobs = []
  working : t.service.outage = none
  keyed : t.service.records.Keyed

theorem Begun.sound (begun : t.Begun) : t.Sound where
  working := begun.working
  keyed := begun.keyed
  calls _ hc := absurd (begun.calls ▸ hc) List.not_mem_nil
  jobs _ hj := absurd (begun.jobs ▸ hj) List.not_mem_nil

end Traffic

/-! ## A detour to begin with -/

namespace Detour

/-- The traffic of the service that knows the detour. -/
def idle : Traffic := { service := service }

/-- There are no records to begin with. -/
theorem blank (id : String) : idle.service.records.get? id = none := rfl

theorem begun : idle.Begun where
  calls := rfl
  jobs := rfl
  working := rfl
  keyed id _ found := absurd (found.symm.trans (blank id)) (Option.some_ne_none _)

/-- Its engine has no hooks. -/
theorem keeps {α : Type} (f : Run → α) : idle.service.engine.Keeps f :=
  fun _ hook => absurd hook List.not_mem_nil

end Detour

end Conveyor
