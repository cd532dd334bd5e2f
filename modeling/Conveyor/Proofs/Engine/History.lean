/-
What a run has done so far.

The stack says what a run is going to do. What it has done is said by the entries that it has taken
from the stack, oldest first, and `Leads` is the relation of a run that carries them along: steps of
the engine append what they take, and a cancellation, which may come at any moment, appends nothing.
The history is not part of the state. It is written beside it, so that later facts can speak of the
order in which entries were taken even where no task tells it, as for disabled nodes.

`Leads.induct` is the induction over a run that all invariants use. The first of them is here: every
task stems from one entry of the history, in the hands of an enabled node, and its number is the
number of such entries before it.
-/
import Conveyor.Proofs.Engine.Turn
import Conveyor.Proofs.Engine.Delivery
import Conveyor.Proofs.Workflow.Views

set_option autoImplicit false

namespace Conveyor

namespace Engine

/-! ## Beginning -/

/-- A run begins before its first look at the stack, with the state it is given but for entries that
hooks have dropped. -/
theorem Watched.begin {e : Engine} (hk : e.Watched) (x : Execution) (s : RunState)
    (canceled : Bool) :
    ∃ p, e.begin x s canceled = .ready p ∧ s.Trims p.state ∧ p.nextIndex = p.state.tasks.nextIndex ∧
      p.left = e.maxIterations ∧ p.canceled = canceled :=
  ⟨_, rfl, hk.callHooks _ _ (fun _ watches => watches.runStarts x.graph.workflow) s, rfl, rfl, rfl⟩

/-- What a chain of checks comes to was let through by the first one. -/
theorem ok_of_bind {ε α β : Type} {c : Except ε α} {f : α → Except ε β} {b : β}
    (h : (c >>= f) = .ok b) : ∃ a, c = .ok a ∧ f a = .ok b := by
  cases c with
  | error cause => cases h
  | ok a => exact ⟨a, rfl, h⟩

/-- A run that is started begins with one entry for each of the nodes it starts at. -/
theorem prepare_start {e : Engine} {w : Workflow} {x : Execution} {s : RunState} {id : String}
    {mode : RunMode} {startNode : Option String} {items : Option Items}
    (prepared : e.prepare w (.start id mode startNode items) = .ok (x, s)) :
    w.graph = .ok x.graph ∧ ∃ names, e.startNodes x.graph startNode = .ok names ∧
      s = RunState.starting startNode names items := by
  rw [prepare] at prepared
  obtain ⟨g, graph, prepared⟩ := ok_of_bind prepared
  obtain ⟨names, starts, prepared⟩ := ok_of_bind prepared
  obtain ⟨rfl, rfl⟩ := Prod.mk.inj (Except.ok.inj prepared)
  exact ⟨graph, names, starts, rfl⟩

/-- A run that is repeated begins with what the run before has left. -/
theorem prepare_rerun {e : Engine} {w : Workflow} {x : Execution} {s : RunState} {id : String}
    {mode : RunMode} {startNode : String} {prior : RunData}
    (prepared : e.prepare w (.rerun id mode startNode prior) = .ok (x, s)) :
    w.graph = .ok x.graph ∧ s = RunState.repeating x.graph startNode prior := by
  rw [prepare] at prepared
  obtain ⟨g, graph, prepared⟩ := ok_of_bind prepared
  obtain ⟨_, _, prepared⟩ := ok_of_bind prepared
  obtain ⟨rfl, rfl⟩ := Prod.mk.inj (Except.ok.inj prepared)
  exact ⟨graph, rfl⟩

/-- A run is resumed only if it waits, and it begins with the state it was left in. -/
theorem prepare_resume {e : Engine} {w : Workflow} {x : Execution} {s : RunState} {run : Run}
    (prepared : e.prepare w (.resume run) = .ok (x, s)) :
    run.status = .waiting ∧ w.graph = .ok x.graph ∧ s = { run.state with waitTill := none } := by
  rw [prepare] at prepared
  split at prepared
  · rename_i waiting
    obtain ⟨g, graph, prepared⟩ := ok_of_bind prepared
    obtain ⟨rfl, rfl⟩ := Prod.mk.inj (Except.ok.inj prepared)
    exact ⟨waiting, graph, rfl⟩
  · simp only [reduceCtorEq] at prepared

/-- A run that comes to an end was prepared before. -/
theorem prepare_of_perform {e : Engine} {w : Workflow} {r : Request} {canceled : Bool}
    {ending : Ending} (performs : e.perform w r canceled = .ok ending) :
    ∃ x s, e.prepare w r = .ok (x, s) ∧ e.ending x (e.begin x s canceled) = ending := by
  rw [perform] at performs
  obtain ⟨⟨x, s⟩, prepared, ends⟩ := ok_of_bind performs
  exact ⟨x, s, prepared, Except.ok.inj ends⟩

/-- The graph of a workflow is a graph of this workflow. -/
theorem workflow_of_graph {w : Workflow} {g : Graph} (h : w.graph = .ok g) : g.workflow = w := by
  rw [Workflow.graph] at h
  cases built : Graph.build w with
  | error err =>
    rw [built] at h
    simp only [Except.mapError, reduceCtorEq] at h
  | ok g' =>
    rw [built] at h
    obtain rfl := Except.ok.inj h
    exact Graph.workflow_of_build built

/-- A workflow has a graph if its names are distinct and its connections have known ends. -/
theorem graph_of_workflow (g : Graph) : g.workflow.graph = .ok g := by
  rw [Workflow.graph, Graph.build_workflow]
  rfl

/-- A pass in which nothing has been done yet. -/
structure Fresh (p : Pass) : Prop where
  index : p.nextIndex = 0
  tasks : p.state.tasks = []
  outputs : p.state.agenda.outputs = []
  error : p.state.error = none

/-- A run that is started begins with a fresh pass and entries that come from nowhere. -/
theorem begin_start {e : Engine} (hk : e.Watched) {w : Workflow} {x : Execution} {s : RunState}
    {id : String} {mode : RunMode} {startNode : Option String} {items : Option Items}
    (prepared : e.prepare w (.start id mode startNode items) = .ok (x, s)) (canceled : Bool) :
    ∃ p, e.begin x s canceled = .ready p ∧ Fresh p ∧
      p.state.agenda.stack.Sublist s.agenda.stack ∧ (∀ en ∈ s.agenda.stack, en.sources = []) ∧
      p.left = e.maxIterations := by
  obtain ⟨_, names, _, rfl⟩ := prepare_start prepared
  obtain ⟨p, hp, ⟨stack, hsub, hs⟩, index, left, _⟩ :=
    hk.begin x (RunState.starting startNode names items) canceled
  refine ⟨p, hp, ⟨?_, by rw [hs]; rfl, by rw [hs]; rfl, by rw [hs]; rfl⟩, ?_, ?_, left⟩
  · rw [index, hs]
    exact RunData.nextIndex_nil
  · rw [hs]
    exact hsub
  · intro en hen
    obtain ⟨name, _, rfl⟩ := List.mem_map.1 hen
    rfl

/-! ## Runs and what they take -/

/-- A run gets from one phase to another and takes some entries on the way, the first one first. It
may be canceled between any two steps. -/
inductive Leads (e : Engine) (x : Execution) (φ₀ : Phase) : List Entry → Phase → Prop
  | refl : Leads e x φ₀ [] φ₀
  | step {h : List Entry} {φ : Phase} (run : Leads e x φ₀ h φ) :
      Leads e x φ₀ (h ++ φ.next?.toList) (e.step x φ)
  | cancel {h : List Entry} {φ : Phase} (run : Leads e x φ₀ h φ) : Leads e x φ₀ h φ.cancel

variable {e : Engine} {x : Execution} {φ₀ φ φ' : Phase}

theorem Leads.trans {h h' : List Entry} (run : Leads e x φ₀ h φ) (run' : Leads e x φ h' φ') :
    Leads e x φ₀ (h ++ h') φ' := by
  induction run' with
  | refl => rwa [List.append_nil]
  | step _ ih =>
    rw [← List.append_assoc]
    exact ih.step
  | cancel _ ih => exact ih.cancel

/-- The entries that some steps take. -/
def taken (e : Engine) (x : Execution) : Nat → Phase → List Entry
  | 0, _ => []
  | n + 1, φ => φ.next?.toList ++ e.taken x n (e.step x φ)

/-- The engine itself follows this relation. -/
theorem leads_steps (e : Engine) (x : Execution) (n : Nat) (φ : Phase) :
    Leads e x φ (e.taken x n φ) (e.steps x n φ) := by
  induction n generalizing φ with
  | zero => exact .refl
  | succ n ih => exact (Leads.refl.step).trans (ih (e.step x φ))

/-- A run that has stopped takes no more entries. -/
theorem taken_stopped (e : Engine) (x : Execution) (n : Nat) (p : Pass) (c : Bool) :
    e.taken x n (.stopped p c) = [] := by
  induction n with
  | zero => rfl
  | succ n ih => exact ih

/-- A phase that a pass goes through comes after one that a pass goes through. -/
theorem Turn.pass {p' : Pass} (turn : Turn e x φ φ') (hp' : φ'.pass? = some p') :
    ∃ p, φ.pass? = some p := by
  -- A node that works is in a pass: the one that takes its entry, or the one in which it lingers.
  have holder : ∀ {en n q a}, Works e x φ en n q a → ∃ p, φ.pass? = some p := by
    intro en n q a works
    cases works with
    | taken => exact ⟨_, rfl⟩
    | lingered => exact ⟨_, rfl⟩
  cases turn with
  | still => exact ⟨p', hp'⟩
  | ended => exact ⟨_, rfl⟩
  | refused => exact ⟨_, rfl⟩
  | bypassed => exact ⟨_, rfl⟩
  | lingers => exact ⟨_, rfl⟩
  | breaks => exact ⟨_, rfl⟩
  | failed records =>
    obtain ⟨_, _, works, _⟩ := records.works
    exact holder works
  | completed records =>
    obtain ⟨_, _, works, _⟩ := records.works
    exact holder works
  | paused records =>
    obtain ⟨_, _, works, _⟩ := records.works
    exact holder works

/-- **Induction over a run.** What holds of the pass at the beginning, and is kept by the effect of
every step and by a cancellation, holds of the pass at every moment. -/
theorem Leads.induct (hk : e.Watched) (inv : List Entry → Phase → Pass → Prop)
    (start : ∀ p, φ₀.pass? = some p → inv [] φ₀ p)
    (step : ∀ {h φ p p'}, Leads e x φ₀ h φ → φ.pass? = some p → (e.step x φ).pass? = some p' →
      inv h φ p → Effect e x φ (e.step x φ) p p' → inv (h ++ φ.next?.toList) (e.step x φ) p')
    (ready : ∀ {h p}, inv h (.ready p) p →
      inv h (.ready { p with canceled := true }) { p with canceled := true })
    (lingering : ∀ {h p n en r}, inv h (.lingering p n en r) p →
      inv h (.lingering { p with canceled := true } n en r) { p with canceled := true })
    {h : List Entry} {φ : Phase} (run : Leads e x φ₀ h φ) {p : Pass} (hp : φ.pass? = some p) :
    inv h φ p := by
  -- The invariant needs the pass before each step, and a step leads to a pass only from one.
  induction run generalizing p with
  | refl => exact start p hp
  | @step h φ run ih =>
    have turn := turn_step hk x φ
    obtain ⟨q, hq⟩ := turn.pass hp
    exact step run hq hp (ih hq) (turn.effect hq hp)
  | @cancel h φ run ih =>
    cases φ with
    | ready q =>
      obtain rfl := Option.some.inj hp
      exact ready (ih rfl)
    | lingering q n en r =>
      obtain rfl := Option.some.inj hp
      exact lingering (ih rfl)
    | stopped q c => exact ih hp
    | broken m => exact ih hp

/-- A task that was recorded stays. -/
theorem Leads.mem_tasks (hk : e.Watched) {h : List Entry} (run : Leads e x φ₀ h φ) {p₀ p : Pass}
    (hp₀ : φ₀.pass? = some p₀) (hp : φ.pass? = some p) {name : String} {u : Task}
    (hu : u ∈ p₀.state.tasks.tasks name) : u ∈ p.state.tasks.tasks name := by
  refine Leads.induct hk (fun _ _ q => u ∈ q.state.tasks.tasks name) ?_ ?_ id id run hp
  · intro q hq
    obtain rfl := Option.some.inj (hp₀.symm.trans hq)
    exact hu
  · intro h φ q q' _ _ _ hmem effect
    cases effect with
    | idle _ state => exact state ▸ hmem
    | refused _ _ state => rw [state]; exact hmem
    | lingers _ _ _ _ state => rw [state]; exact hmem
    | bypassed _ _ _ _ state => rw [state]; exact hmem
    | failed _ _ _ _ _ state =>
      rw [state]
      exact RunData.mem_tasks_record.2 (.inl hmem)
    | completed _ _ _ _ _ state =>
      rw [state]
      exact RunData.mem_tasks_record.2 (.inl hmem)

/-! ## Tasks stem from entries -/

/-- The node of an entry is there and enabled, so that taking the entry executes it. -/
def Runs (g : Graph) (en : Entry) : Prop := ∃ n, g.node? en.node = some n ∧ n.disabled = false

instance (g : Graph) (en : Entry) : Decidable (Runs g en) :=
  match h : g.node? en.node with
  | none => isFalse fun ⟨_, hn, _⟩ => by simp [hn] at h
  | some n =>
    if hd : n.disabled = false then isTrue ⟨n, h, hd⟩
    else isFalse fun ⟨m, hm, hd'⟩ => hd (Option.some.inj (h.symm.trans hm) ▸ hd')

theorem not_runs_of_unknown {g : Graph} {en : Entry} (node : g.node? en.node = none) :
    ¬ Runs g en := by
  rintro ⟨n, known, -⟩
  exact Option.some_ne_none n (known.symm.trans node)

theorem not_runs_of_disabled {g : Graph} {en : Entry} {n : Node} (node : g.node? en.node = some n)
    (disabled : n.disabled = true) : ¬ Runs g en := by
  rintro ⟨m, hm, enabled⟩
  obtain rfl := Option.some.inj (node.symm.trans hm)
  exact Bool.false_ne_true (enabled.symm.trans disabled)

/-- How many of some entries are executed when they are taken. -/
def executed (g : Graph) (h : List Entry) : Nat := h.countP fun en => decide (Runs g en)

theorem executed_append (g : Graph) (h h' : List Entry) :
    executed g (h ++ h') = executed g h + executed g h' := List.countP_append

theorem executed_singleton {g : Graph} {en : Entry} (runs : Runs g en) : executed g [en] = 1 := by
  simp only [executed, List.countP_singleton, decide_eq_true_eq, if_pos runs]

theorem executed_singleton_of_not {g : Graph} {en : Entry} (rests : ¬ Runs g en) :
    executed g [en] = 0 := by
  simp only [executed, List.countP_singleton, decide_eq_true_eq, if_neg rests]

/-- Where a run stands in its history: the next number is that of the executed entries so far, and
the entry that a node lingers with is the last one taken. -/
def Aligned (g : Graph) (h : List Entry) : Phase → Prop
  | .ready p => p.nextIndex = executed g h
  | .lingering p n en _ => g.node? en.node = some n ∧ n.disabled = false ∧
      ∃ a, h = a ++ [en] ∧ p.nextIndex = executed g a
  | .stopped .. | .broken _ => True

/-- The entry in the hands of a node is the last one taken, and its task gets the number of executed
entries before it. -/
theorem Holds.last {h : List Entry} {p : Pass} {en : Entry} {n : Node} (holds : Holds x φ en n)
    (hp : φ.pass? = some p) (aligned : Aligned x.graph h φ) :
    x.graph.node? en.node = some n ∧ n.disabled = false ∧
      ∃ a, h ++ φ.next?.toList = a ++ [en] ∧ p.nextIndex = executed x.graph a := by
  cases holds with
  | taking next node enabled =>
    obtain ⟨q, rfl⟩ := Phase.ready_of_next? next
    obtain rfl := Option.some.inj hp
    exact ⟨node, enabled, h, by rw [next]; rfl, aligned⟩
  | lingering =>
    obtain rfl := Option.some.inj hp
    obtain ⟨node, enabled, a, ha, index⟩ := aligned
    exact ⟨node, enabled, a, by rw [ha]; exact List.append_nil _, index⟩

/-- A task of a node stems from an entry of a history, which was taken right after the entries
`a`. -/
def Stems (g : Graph) (h : List Entry) (name : String) (t : Task) : Prop :=
  ∃ a en, a ++ [en] <+: h ∧ en.node = name ∧ t.sources = en.sources ∧ t.index = executed g a

theorem Stems.mono {g : Graph} {h : List Entry} {name : String} {t : Task}
    (stems : Stems g h name t) (h' : List Entry) : Stems g (h ++ h') name t := by
  obtain ⟨a, en, taken, node, sources, index⟩ := stems
  exact ⟨a, en, taken.trans (List.prefix_append h h'), node, sources, index⟩

/-- The step that records a task of the entry in hand. -/
theorem Records.stems {h : List Entry} {p q : Pass} {en : Entry} {n : Node} {t : Task}
    {s : RunState} (records : Records e x φ en n q t s) (holds : Holds x φ en n)
    (hp : φ.pass? = some p) (aligned : Aligned x.graph h φ) (index : t.index = p.nextIndex) :
    Stems x.graph (h ++ φ.next?.toList) n.name t := by
  obtain ⟨node, _, a, hlast, hindex⟩ := holds.last hp aligned
  exact ⟨a, en, hlast ▸ List.prefix_refl _, (Graph.name_of_node? node).symm, records.task.2,
    index.trans hindex⟩

/-- **Every task of a run stems from an entry that was taken.** -/
theorem Leads.aligned (hk : e.Watched) {p₀ : Pass} (hp₀ : φ₀ = .ready p₀)
    (fresh : p₀.nextIndex = 0) (blank : p₀.state.tasks = []) {h : List Entry}
    (run : Leads e x φ₀ h φ) {p : Pass} (hp : φ.pass? = some p) :
    Aligned x.graph h φ ∧ ∀ name t, t ∈ p.state.tasks.tasks name → Stems x.graph h name t := by
  refine Leads.induct hk (fun h φ q => Aligned x.graph h φ ∧
    ∀ name t, t ∈ q.state.tasks.tasks name → Stems x.graph h name t) ?_ ?_ id id run hp
  · rintro q hq
    subst hp₀
    obtain rfl := Option.some.inj hq
    refine ⟨fresh, fun name t ht => ?_⟩
    rw [blank] at ht
    exact absurd ht List.not_mem_nil
  · rintro h φ q q' _ hq hq' ⟨aligned, stems⟩ effect
    -- Most steps record nothing; the others record one task, which stems from the entry in hand.
    have kept : q'.state.tasks = q.state.tasks → ∀ name t, t ∈ q'.state.tasks.tasks name →
        Stems x.graph (h ++ φ.next?.toList) name t :=
      fun same name t ht => (stems name t (same ▸ ht)).mono _
    have added : ∀ {n t}, q'.state.tasks = q.state.tasks.record n t →
        Stems x.graph (h ++ φ.next?.toList) n t → ∀ name u, u ∈ q'.state.tasks.tasks name →
        Stems x.graph (h ++ φ.next?.toList) name u := by
      intro n t same new name u hu
      rw [same] at hu
      rcases RunData.mem_tasks_record.1 hu with old | ⟨rfl, rfl⟩
      · exact (stems name u old).mono _
      · exact new
    cases effect with
    | idle next state phase =>
      refine ⟨?_, kept (state ▸ rfl)⟩
      rw [next, Option.toList_none, List.append_nil]
      rcases phase with same | stopped
      · rw [same]; exact aligned
      · rw [stopped]; trivial
    | refused next below state phase => exact ⟨phase ▸ trivial, kept (state ▸ rfl)⟩
    | lingers next below node enabled state index left phase =>
      refine ⟨?_, kept (state ▸ rfl)⟩
      obtain ⟨_, _, a, hlast, hindex⟩ := (Holds.taking next node enabled).last hq aligned
      rw [phase]
      exact ⟨node, enabled, a, hlast, index.trans hindex⟩
    | @bypassed en n stack next below node disabled state index left phase =>
      refine ⟨?_, kept (state ▸ rfl)⟩
      have rests := not_runs_of_disabled node disabled
      rw [phase]
      obtain ⟨r, rfl⟩ := Phase.ready_of_next? next
      obtain rfl := Option.some.inj hq
      have aligned : r.nextIndex = executed x.graph h := aligned
      simp only [Aligned, next, Option.toList_some, executed_append,
        executed_singleton_of_not rests, index, aligned, Nat.add_zero]
    | failed holds records below index status state phase =>
      exact ⟨phase ▸ trivial, added (state ▸ rfl) (records.stems holds hq aligned index)⟩
    | completed holds records below index status state phase =>
      refine ⟨?_, added (state ▸ rfl) (records.stems holds hq aligned index)⟩
      rcases phase with ⟨phase, _, hnext, _⟩ | ⟨phase, _⟩
      · obtain ⟨node, enabled, a, hlast, hindex⟩ := holds.last hq aligned
        rw [phase]
        simp only [Aligned, hnext, hlast, executed_append, hindex]
        rw [executed_singleton ⟨_, node, enabled⟩]
      · rw [phase]; trivial

end Engine

/-! ## A run to look at

A workflow of three nodes: Start leads to J directly and through A, which is disabled. What its
nodes do when they are executed is left open. -/

namespace Detour

/-- The workflow with the detour. -/
def workflow : Workflow where
  id := "detour"
  name := "Detour"
  nodes :=
    [{ id := "1", name := "Start", type := "relay" },
      { id := "2", name := "A", type := "relay", disabled := true },
      { id := "3", name := "J", type := "relay" }]
  connections :=
    [("Start", [("main", [[⟨"A", 0⟩, ⟨"J", 0⟩]])]), ("A", [("main", [[⟨"J", 1⟩]])])]

/-- Its graph. -/
def graph : Graph := .of workflow (by decide) (by decide)

/-- An engine whose nodes are of one type; it allows as many entries as there are nodes. -/
def engine (relay : NodeType) : Engine where
  registry := [("relay", relay)]
  box := ⟨0, []⟩
  maxIterations := 3
  now := ⟨0, 0⟩

/-- Its run. -/
def execution : Execution := ⟨graph, "run", .manual, ⟨0, 0⟩⟩

/-- The state that the run begins with. -/
def state : RunState := RunState.starting (some "Start") ["Start"] none

theorem watched (relay : NodeType) : (engine relay).Watched :=
  fun _ hook => absurd hook List.not_mem_nil

theorem prepared (relay : NodeType) :
    (engine relay).prepare workflow (.start "run" .manual (some "Start") none)
      = .ok (execution, state) := rfl

/-- The first phase of the run. -/
def first (relay : NodeType) : Phase := (engine relay).begin execution state false

end Detour

end Conveyor
