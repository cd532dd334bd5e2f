/-
Runs as they are written, and with them everything that is stored.

The state of a run is written with what was done, what is to be done, and what nodes wait for, so
that a run that has paused goes on from what is read as it would have gone on from what was written.
Moments are written as text and read by a reader of their own; that a moment comes back from its
text is asked for where it is needed (`Legible`).
-/
import Conveyor.Proofs.Parameter.Written
import Conveyor.Proofs.Workflow.Written
import Conveyor.Run.Record

set_option autoImplicit false

namespace Conveyor

open Json

/-! ## Moments -/

/-- The moment, if there is one, comes back. -/
def Time.Instant.Legible (t : Option Instant) : Prop := ∀ m ∈ t, decode m.encode = some m

/-- A moment is never written as null. -/
theorem Time.Instant.member_encode {t : Option Instant} (legible : Legible t) :
    (t.map encode).elim (some none) (Decode.orNull decode) = some t :=
  optional_member legible nofun

/-! ## Tasks -/

/-- The ports of a source have 64 bits. -/
structure Source.Fits (s : Source) : Prop where
  output : s.output < 2 ^ 64
  input : s.input < 2 ^ 64

theorem Source.decode_encode {s : Source} (fits : s.Fits) : decode s.encode = some s := by
  simp [decode, encode, fields, Named.get?_cons, Decode.string, nat_ofNat fits.output,
    nat_ofNat fits.input]

/-- A list of sources comes back if each of them does. -/
theorem Source.list_encode {sources : List Source} (fits : ∀ s ∈ sources, s.Fits) :
    Decode.list decode (.arr (sources.map encode)) = some sources :=
  list_map fun s mem => decode_encode (fits s mem)

theorem TaskError.decode_encode (e : TaskError) : decode e.encode = some e := by
  simp [decode, encode, fields, Named.get?_cons, Decode.string]

theorem TaskStatus.decode_name (status : TaskStatus) :
    Decode.choice names (.str status.name) = some status := by
  cases status <;> rfl

theorem decodePorts_encodePorts (ports : List Items) :
    decodePorts (encodePorts ports) = some ports :=
  list_map fun _ _ => list_map fun i _ => i.decode_encode

/-- What the program can hold of a task: numbers of 64 bits, and sources. That the moment at which
it began comes back is asked for as well. -/
structure Task.Fits (t : Task) : Prop where
  index : t.index < 2 ^ 64
  startTime : Time.Instant.Legible (some t.startTime)
  elapsed : t.elapsed < 2 ^ 64
  sources : ∀ s ∈ t.sources, s.Fits

theorem Task.decode_encode {t : Task} (fits : t.Fits) : decode t.encode = some t := by
  have error : (t.error.map TaskError.encode).elim (some none) (Decode.orNull TaskError.decode)
      = some t.error :=
    optional_member (fun e _ => e.decode_encode) nofun
  simp [decode, encode, fields, Named.get?_cons, Named.get?_nil, nat_ofNat fits.index,
    fits.startTime t.startTime rfl, nat_ofNat fits.elapsed, TaskStatus.decode_name,
    decodePorts_encodePorts, error, Source.list_encode fits.sources]

/-- What the program can hold of the tasks of a run. -/
def RunData.Fits (d : RunData) : Prop := ∀ p ∈ d, ∀ t ∈ p.2, t.Fits

theorem RunData.decode_encode {d : RunData} (fits : d.Fits) : decode d.encode = some d := by
  have each : ∀ p ∈ d, Decode.list Task.decode (.arr (p.2.map Task.encode)) = some p.2 :=
    fun p hp => list_map fun t mem => Task.decode_encode (fits p hp t mem)
  exact @dict_map _ (Decode.list Task.decode) (fun ts => .arr (ts.map Task.encode)) d each

/-! ## States -/

/-- What the program can hold of an entry. -/
def Entry.Fits (e : Entry) : Prop := ∀ s ∈ e.sources, s.Fits

theorem Entry.decode_encode {e : Entry} (fits : e.Fits) : decode e.encode = some e := by
  simp [decode, encode, fields, Named.get?_cons, Decode.string, decodePorts_encodePorts,
    Source.list_encode fits]

/-- What the program can hold of an agenda. -/
structure Agenda.Fits (a : Agenda) : Prop where
  stack : ∀ e ∈ a.stack, e.Fits
  arrivals : ∀ p ∈ a.arrivals, ∀ s ∈ p.2, s.Fits

theorem Agenda.decode_encode {a : Agenda} (fits : a.Fits) : decode a.encode = some a := by
  have stack : Decode.list Entry.decode (.arr (a.stack.map Entry.encode)) = some a.stack :=
    list_map fun e mem => Entry.decode_encode (fits.stack e mem)
  have outputs : Decode.dict decodePorts (.obj (a.outputs.map fun p => (p.1, encodePorts p.2)))
      = some a.outputs :=
    dict_map fun p _ => decodePorts_encodePorts p.2
  have arrivals : Decode.dict (Decode.list Source.decode)
      (.obj (a.arrivals.map fun p => (p.1, .arr (p.2.map Source.encode)))) = some a.arrivals :=
    @dict_map _ (Decode.list Source.decode)
      (fun sources => .arr (sources.map Source.encode)) a.arrivals
      fun p hp => Source.list_encode (fits.arrivals p hp)
  simp [decode, encode, fields, Named.get?_cons, stack, outputs, arrivals]

theorem RunError.decode_encode (e : RunError) : decode e.encode = some e := by
  simp [decode, encode, fields, Named.get?_cons, Decode.string]

/-- What the program can hold of a state, whose moment is taken to come back. -/
structure RunState.Fits (s : RunState) : Prop where
  tasks : s.tasks.Fits
  agenda : s.agenda.Fits
  waitTill : Time.Instant.Legible s.waitTill

/-- **The state of a run comes back.** -/
theorem RunState.decode_encode {s : RunState} (fits : s.Fits) : decode s.encode = some s := by
  have error : (s.error.map RunError.encode).elim (some none) (Decode.orNull RunError.decode)
      = some s.error :=
    optional_member (fun e _ => e.decode_encode) nofun
  simp [decode, encode, fields, Named.get?_cons, RunData.decode_encode fits.tasks, error,
    Agenda.decode_encode fits.agenda, Time.Instant.member_encode fits.waitTill]

/-! ## Runs -/

theorem RunMode.decode_name (mode : RunMode) :
    Decode.choice names (.str mode.name) = some mode := by
  cases mode <;> rfl

theorem RunStatus.decode_name (status : RunStatus) :
    Decode.choice names (.str status.name) = some status := by
  cases status <;> rfl

/-- What the program can hold of a run, whose moments are taken to come back. -/
structure Run.Fits (r : Run) : Prop where
  startedAt : Time.Instant.Legible (some r.startedAt)
  stoppedAt : Time.Instant.Legible r.stoppedAt
  waitTill : Time.Instant.Legible r.waitTill
  state : r.state.Fits

/-- **A run comes back.** -/
theorem Run.decode_encode {r : Run} (fits : r.Fits) : decode r.encode = some r := by
  simp [decode, encode, fields, Named.get?_cons, Named.get?_nil, Decode.string, Decode.bool,
    RunMode.decode_name, RunStatus.decode_name, fits.startedAt r.startedAt rfl,
    Time.Instant.member_encode fits.stoppedAt, Time.Instant.member_encode fits.waitTill,
    RunState.decode_encode fits.state]

/-- What the program can hold of a record, whose moments are taken to come back. -/
structure Record.Fits (r : Record) : Prop where
  startedAt : Time.Instant.Legible (some r.startedAt)
  stoppedAt : Time.Instant.Legible r.stoppedAt
  waitTill : Time.Instant.Legible r.waitTill
  state : ∀ s ∈ r.state, s.Fits

/-- **The record of a run comes back**, with a state or without. -/
theorem Record.decode_encode {r : Record} (fits : r.Fits) : decode r.encode = some r := by
  have state : (r.state.map RunState.encode).elim (some none) (Decode.orNull RunState.decode)
      = some r.state :=
    optional_member (fun s mem => RunState.decode_encode (fits.state s mem)) nofun
  simp [decode, encode, fields, Named.get?_cons, Decode.string, Decode.bool, RunMode.decode_name,
    RunStatus.decode_name, fits.startedAt r.startedAt rfl,
    Time.Instant.member_encode fits.stoppedAt, Time.Instant.member_encode fits.waitTill, state]

/-! ## Everything that is stored -/

/-- **What is stored comes back.** Workflows, declarations of node types, filters, states of runs
and runs are read from what was written as what they were, whatever they hold: members that are left
out for being empty, absent or as by default are read as just that. A coordinate of a node has to be
finite, as JSON has no other numbers, numbers have to be such as the program can hold, and moments
are taken to come back one by one. -/
theorem stored_comes_back :
    (∀ w : Workflow, w.Fits → Workflow.decode w.encode = some w) ∧
    (∀ s : Parameter.Spec, s.version < 2 ^ 32 → Parameter.Spec.decode s.encode = some s) ∧
    (∀ f : Filter, Filter.decode f.encode = some f) ∧
    (∀ s : RunState, s.Fits → RunState.decode s.encode = some s) ∧
    ∀ r : Run, r.Fits → Run.decode r.encode = some r :=
  ⟨fun _ => Workflow.decode_encode, fun _ => Parameter.Spec.decode_encode, Filter.decode_encode,
    fun _ => RunState.decode_encode, fun _ => Run.decode_encode⟩

namespace Stored

/-- A workflow with a node on the canvas that is connected to another one by two ports. -/
def workflow : Workflow :=
  { id := "w", name := "Nightly",
    nodes :=
      [{ id := "1", name := "Poll", type := "trigger",
         position := ⟨0x406f400000000000, 0xc059000000000000⟩ },
       { id := "2", name := "Keep", type := "set", typeVersion := 2, disabled := true,
         onError := .continueErrorOutput, parameters := [("keepOnlySet", .bool true)] }],
    connections := [("Poll", [(mainType, [[⟨"Keep", 0⟩], [], [⟨"Keep", 1⟩, ⟨"Keep", 0⟩]])])],
    settings := { onSuccess := .none, vars := [("zone", .str "UTC")] } }

/-- A declaration inside another one. -/
def inner : Parameter.Schema :=
  { name := "url", kind := .resourceLocator, extraction := some (.pattern "^https?://(.*)$"),
    modes := [{ name := "id" }, { name := "url", extraction := some (.pattern "/(.*)") }] }

/-- A declaration with a collection, and a parameter that is shown at times. -/
def spec : Parameter.Spec :=
  { name := "http", displayName := "HTTP", version := 3,
    properties :=
      [{ name := "options", kind := .collection, default := .obj [], options := [inner] },
       { name := "method", kind := .options, default := .str "GET",
         display := some { hideFor := [("raw", [.bool true])] },
         choices := [⟨"Get", .str "GET"⟩] }] }

/-- A filter with a condition that has an id and one that has none. -/
def filter : Filter :=
  { caseSensitive := false,
    conditions := [⟨some "c1", .str "a", .str "b", ⟨"string", "equals", false⟩⟩,
      ⟨none, .str "", .null, ⟨"string", "empty", true⟩⟩],
    combinator := "or" }

/-- When the run goes on. -/
def moment : Time.Instant := ⟨1700000000, 500000000⟩

/-- A state in which one node has paused and the next is on the stack. -/
def state : RunState :=
  { startNode := some "Poll",
    tasks := [("Poll",
      [{ index := 0, startTime := moment, elapsed := 250, status := .success,
         output := [[{ json := [("n", .ofNat 1)] }]] }])],
    lastNode := some "Poll",
    agenda :=
      { stack :=
          [Entry.single "Keep" 1 [{ binary := some [("file", ⟨"aGk=", "text/plain", none⟩)] }]
            [⟨"Poll", 2, 1⟩]],
        outputs := [("Poll", [[{ json := [("n", .ofNat 1)] }]])],
        arrivals := [("Keep", [⟨"Poll", 2, 1⟩])] },
    waitTill := some moment }

/-- The run that has paused. -/
def run : Run :=
  { id := "r", workflowId := "w", mode := .webhook, status := .waiting, finished := false,
    startedAt := moment, stoppedAt := some moment, waitTill := some moment, state := state }

theorem fits_workflow : workflow.Fits where
  nodes := by
    have left : Decimal.Finite (Float.ofBits 0x406f400000000000) := by
      rw [Decimal.finite_iff]; decide
    have above : Decimal.Finite (Float.ofBits 0xc059000000000000) := by
      rw [Decimal.finite_iff]; decide
    have origin : Decimal.Finite (Float.ofBits 0) := by rw [Decimal.finite_iff]; decide
    simp only [workflow, List.forall_mem_cons, List.not_mem_nil, false_imp_iff,
      implies_true, and_true]
    exact ⟨⟨by decide, left, above⟩, ⟨by decide, origin, origin⟩⟩
  connections := by
    unfold Connections.Fits
    decide

theorem legible_moment : Time.Instant.Legible (some moment) := by
  rintro m ⟨⟩
  cbv

theorem fits_state : state.Fits where
  tasks := by
    simp only [RunData.Fits, state, List.forall_mem_cons, List.not_mem_nil, false_imp_iff,
      implies_true, and_true]
    exact ⟨by decide, legible_moment, by decide, by simp⟩
  agenda := by
    have source : Source.Fits ⟨"Poll", 2, 1⟩ := ⟨by decide, by decide⟩
    refine ⟨?stack, ?arrivals⟩
    case stack => simpa [state, Entry.Fits, Entry.single] using source
    case arrivals => simpa [state] using source
  waitTill := legible_moment

/-- A workflow, a declaration, a filter, the state of a paused run and that run. -/
theorem paused_comes_back :
    Workflow.decode workflow.encode = some workflow ∧ Parameter.Spec.decode spec.encode
      = some spec ∧ Filter.decode filter.encode = some filter ∧ RunState.decode state.encode
      = some state ∧ Run.decode run.encode = some run :=
  ⟨stored_comes_back.1 workflow fits_workflow, stored_comes_back.2.1 spec (by decide),
    stored_comes_back.2.2.1 filter, stored_comes_back.2.2.2.1 state fits_state,
    stored_comes_back.2.2.2.2 run ⟨legible_moment, legible_moment, legible_moment, fits_state⟩⟩

end Stored

end Conveyor
