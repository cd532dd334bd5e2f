/-
The record of a run is the order in which its nodes were executed.

Tasks are kept node by node, and the order between nodes is told by their numbers alone. The number
of the next task is counted inside a pass and looked up in the record when a pass begins. So two
things have to hold together for the order to be right over all passes of a run: that a pass starts
to count where the record ends, and that it records what it counts. `Completes.tasks` has both for a
single pass. Here passes are put one after another, each of them resuming what the one before has
left (`Chronicle`), and as the first free number after a pass is the one it would have given next,
the numbers run on.

What counts as an execution is not left to the trail alone: `Served` ties it to the entries that are
taken from the stack, so that every entry of an enabled node has one task, in the order of the
entries.
-/
import Conveyor.Proofs.Engine.Trail

set_option autoImplicit false

namespace Conveyor

namespace Engine

variable {e : Engine} {w : Workflow} {g : Graph} {x : Execution} {φ φ' : Phase} {p p' : Pass}
  {r : Request} {h tried : List Entry} {ts ran : List (String × Task)} {d : RunData}
  {run run' : Run}

/-! ## Executions and entries -/

/-- The entries that a pass executes of those it takes: their nodes are enabled, and the limit does
not stop them. -/
def attempts (e : Engine) (g : Graph) (h : List Entry) : List Entry :=
  (h.take e.maxIterations).filter fun en => Runs g en

/-- Some tasks are those of some entries, one each and in their order. -/
def Serves (ts : List (String × Task)) (tried : List Entry) : Prop :=
  ts.map (fun u => (u.1, u.2.sources)) = tried.map fun en => (en.node, en.sources)

theorem Serves.append {ts' : List (String × Task)} {tried' : List Entry} (serves : Serves ts tried)
    (serves' : Serves ts' tried') : Serves (ts ++ ts') (tried ++ tried') := by
  rw [Serves, List.map_append, List.map_append, serves, serves']

/-- The tasks of a trail are those of the entries taken so far; only an entry that a node lingers
with has none yet. -/
def Served (e : Engine) (g : Graph) (h : List Entry) (ts : List (String × Task)) : Phase → Prop
  | .ready p => p.left + h.length = e.maxIterations ∧ Serves ts (h.filter fun en => Runs g en)
  | .lingering p n en _ => p.left + h.length = e.maxIterations ∧ g.node? en.node = some n ∧
    n.disabled = false ∧
      ∃ a, h = a ++ [en] ∧ Serves ts (a.filter fun en => Runs g en)
  | .stopped .. => Serves ts (e.attempts g h)
  | .broken _ => True

theorem Served.count (served : Served e g h ts φ) (hp : φ.pass? = some p) (going : φ.Going) :
    p.left + h.length = e.maxIterations := by
  cases φ with
  | ready q =>
    obtain rfl := Option.some.inj hp
    exact served.1
  | lingering q n en r =>
    obtain rfl := Option.some.inj hp
    exact served.1
  | stopped q c => exact going.elim
  | broken m => exact going.elim

/-- As long as the limit is not reached, all entries of enabled nodes are executed. -/
theorem attempts_of_le (within : h.length ≤ e.maxIterations) :
    e.attempts g h = h.filter fun en => Runs g en := by
  rw [attempts, List.take_of_length_le within]

/-- An entry of an enabled node that was taken last is the last one that is executed. -/
theorem Serves.concat {en : Entry} {n : Node} {t : Task}
    (serves : Serves ts (h.filter fun en => Runs g en)) (node : g.node? en.node = some n)
    (enabled : n.disabled = false) (sources : t.sources = en.sources) :
    Serves (ts ++ [(n.name, t)]) ((h ++ [en]).filter fun en => Runs g en) := by
  have runs : Runs g en := ⟨n, node, enabled⟩
  rw [List.filter_append, List.filter_singleton, decide_eq_true runs, cond_true]
  refine serves.append ?_
  rw [Serves, List.map_singleton, List.map_singleton, Graph.name_of_node? node, sources]

/-- The entry in the hands of a node is the one that was taken last, and those before it have their
tasks. -/
theorem Served.last {en : Entry} {n : Node} (served : Served e x.graph h ts φ)
    (hp : φ.pass? = some p) (holds : Holds x φ en n) :
    x.graph.node? en.node = some n ∧ n.disabled = false ∧
      ∃ a, h ++ φ.next?.toList = a ++ [en] ∧ Serves ts (a.filter fun en => Runs x.graph en) := by
  cases holds with
  | taking next node enabled =>
    obtain ⟨q, rfl⟩ := Phase.ready_of_next? next
    obtain rfl := Option.some.inj hp
    exact ⟨node, enabled, h, by rw [next]; rfl, served.2⟩
  | lingering =>
    obtain rfl := Option.some.inj hp
    obtain ⟨-, node, enabled, a, last, serves⟩ := served
    exact ⟨node, enabled, a, by rw [last]; exact List.append_nil _, serves⟩

/-- An entry whose node is not executed makes no difference. -/
theorem filter_concat_of_not {en : Entry} (rests : ¬ Runs g en) :
    (h ++ [en]).filter (fun en => Runs g en) = h.filter fun en => Runs g en := by
  rw [List.filter_append, List.filter_singleton, decide_eq_false rests, cond_false, List.append_nil]

/-- **Every step serves the entry that it takes.** -/
theorem Served.step (silent : e.Silent) (served : Served e x.graph h ts φ) (hp : φ.pass? = some p)
    (hp' : (e.step x φ).pass? = some p') (effect : Effect e x φ (e.step x φ) p p') :
    Served e x.graph (h ++ φ.next?.toList) (ts ++ (e.concludes? x φ).toList) (e.step x φ) := by
  have total : (e.step x φ).Going → p'.left + (h ++ φ.next?.toList).length = e.maxIterations :=
    fun going =>
    (effect.total hp hp' going h).trans (served.count hp (effect.left hp hp' going).1)
  have none := concludes?_eq_none (x := x) silent hp hp'
  -- An execution that is concluded leaves a task for the entry that was taken last.
  have concluded : ∀ {en n q t s}, Holds x φ en n → Records e x φ en n q t s →
      (h ++ φ.next?.toList).length ≤ e.maxIterations ∧
        Serves (ts ++ [(n.name, t)]) ((h ++ φ.next?.toList).filter fun en => Runs x.graph en) := by
    intro en n q t s holds records
    obtain ⟨node, enabled, a, last, serves⟩ := served.last hp holds
    have count := served.count hp holds.going
    have left := (records.state hp).2.2.1
    refine ⟨by rw [List.length_append]; omega, ?_⟩
    rw [last]
    exact serves.concat node enabled records.task.2
  generalize after : e.step x φ = φ' at effect total hp'
  cases effect with
  | idle next state phase =>
    rw [next, none (by rw [state]), Option.toList_none, Option.toList_none, List.append_nil,
      List.append_nil]
    by_cases going : φ.Going
    · rcases phase with rfl | rfl
      · exact served
      · obtain ⟨rfl, -⟩ := done_of_step going next after
        obtain ⟨count, serves⟩ := served
        rwa [Served, attempts_of_le (by omega)]
    · rw [← after, step_of_rest going]
      exact served
  | @refused en stack err next below state phase whole why =>
    obtain ⟨q, rfl⟩ := Phase.ready_of_next? next
    obtain rfl := Option.some.inj hp
    obtain ⟨count, serves⟩ := served
    rw [next, none (by rw [state]; rfl), phase, Option.toList_none, List.append_nil,
      Option.toList_some, Served]
    by_cases spent : q.left = 0
    · rw [spent, Nat.zero_add] at count
      rwa [attempts, ← count, List.take_left]
    · have rests := not_runs_of_unknown (why.resolve_left spent)
      have within : (h ++ [en]).length ≤ e.maxIterations := by
        rw [List.length_append, List.length_singleton]
        omega
      rwa [attempts_of_le within, filter_concat_of_not rests]
  | @lingers en n stack result next below node enabled state index left phase =>
    obtain ⟨q, rfl⟩ := Phase.ready_of_next? next
    obtain rfl := Option.some.inj hp
    obtain ⟨count, serves⟩ := served
    rw [none (by rw [state]; rfl), Option.toList_none, List.append_nil, next]
    subst phase
    rw [next] at total
    exact ⟨total trivial, node, enabled, h, rfl, serves⟩
  | @bypassed en n stack next below node disabled state index left phase =>
    obtain ⟨q, rfl⟩ := Phase.ready_of_next? next
    obtain rfl := Option.some.inj hp
    obtain ⟨count, serves⟩ := served
    have rests := not_runs_of_disabled node disabled
    rw [none (by rw [state]), Option.toList_none, List.append_nil, next]
    subst phase
    rw [next] at total
    exact ⟨total trivial, by rwa [Option.toList_some, filter_concat_of_not rests]⟩
  | failed holds records below index status state phase =>
    obtain ⟨within, serves⟩ := concluded holds records
    rw [records.concludes? silent, Option.toList_some, phase, Served, attempts_of_le within]
    exact serves
  | completed holds records below index status state phase =>
    obtain ⟨within, serves⟩ := concluded holds records
    rw [records.concludes? silent, Option.toList_some]
    rcases phase with ⟨rfl, -⟩ | ⟨stopped, -⟩
    · exact ⟨total trivial, serves⟩
    · rw [stopped, Served, attempts_of_le within]
      exact serves

/-- **The executions of a pass are those of the entries that it takes**, one for each entry of an
enabled node, in their order. -/
theorem Completes.serves (silent : e.Silent) (graph : w.graph = .ok g)
    (completes : e.Completes w r h ts run) :
    Serves ts (e.attempts g h) := by
  cases completes with
  | @intro x s canceled p c prepared trail =>
    obtain rfl := Except.ok.inj (graph.symm.trans (prepare_graph prepared).1)
    refine Trail.induct silent.watched (fun h ts φ _ => Served e x.graph h ts φ) (fun p hp => ?_)
      (fun hp hp' served effect => served.step silent hp hp' effect) id id trail rfl
    exact ⟨Nat.add_zero _, rfl⟩

/-! ## One pass after another -/

/-- A course of passes: something is asked for where the tasks `d` are on record, and what comes of
it may be resumed, any number of times, from the run itself or from its record. `tried` are the
entries that were executed, and `ran` their executions. -/
inductive Chronicle (d : RunData) : List Entry → List (String × Task) → Run → Prop
  | first {e : Engine} {w : Workflow} {g : Graph} {r : Request} {h : List Entry}
  {ts : List (String × Task)}
      {run : Run} (silent : e.Silent) (graph : w.graph = .ok g) (prior : r.tasks = d)
      (completes : e.Completes w r h ts run) : Chronicle d (e.attempts g h) ts run
  | resumed {e : Engine} {w : Workflow} {g : Graph} {h tried : List Entry}
    {ts ran : List (String × Task)}
      {run run' next : Run} (chronicle : Chronicle d tried ran run) (same : run.Agrees run')
        (silent : e.Silent)
      (graph : w.graph = .ok g) (completes : e.Completes w (.resume run') h ts next) :
      Chronicle d (tried ++ e.attempts g h) (ran ++ ts) next

/-- What a course of passes has done to the record: `ran` was executed for the entries `tried`, and
recorded. -/
structure InOrder (d : RunData) (tried : List Entry) (ran : List (String × Task)) (d' : RunData) :
    Prop where
  /-- Each execution is that of an entry. -/
  serves : Serves ran tried
  /-- The tasks of every node go on where they were. -/
  tasks : ∀ node, d'.tasks node = d.tasks node ++ (ran.filter fun u => u.1 = node).map Prod.snd
  /-- Nothing else is recorded. -/
  all : d'.all.Perm (d.all ++ ran)
  /-- The executions are numbered one after another, from the first free number on. -/
  numbers : ran.map (fun u => u.2.index) = List.range' d.nextIndex ran.length
  /-- The order of execution goes on with them. -/
  order : (d.all.map fun u => u.2.index).Nodup → d'.order = d.order ++ ran.map Prod.fst

/-- The record of a run is that at its beginning with all executions since then. -/
theorem Chronicle.recorded (chronicle : Chronicle d tried ran run) :
    run.state.tasks = d.recordAll ran ∧
      ran.map (fun u => u.2.index) = List.range' d.nextIndex ran.length ∧ Serves ran tried := by
  induction chronicle with
  | first silent graph prior completes =>
    obtain ⟨tasks, numbers⟩ := completes.tasks silent
    rw [prior] at tasks numbers
    exact ⟨tasks, numbers, completes.serves silent graph⟩
  | @resumed e w g h tried ts ran run run' next chronicle same silent graph completes ih =>
    obtain ⟨tasks, numbers, serves⟩ := ih
    obtain ⟨tasks', numbers'⟩ := completes.tasks silent
    have begins : Request.tasks (.resume run') = d.recordAll ran := by
      rw [Request.tasks, same.state, tasks]
    rw [begins, RunData.nextIndex_recordAll numbers] at numbers'
    refine ⟨?_, ?_, serves.append (completes.serves silent graph)⟩
    · rw [tasks', begins, RunData.recordAll_append]
    · rw [List.map_append, numbers, numbers', List.length_append, ← List.range'_append_1]

/-- **The record of a run is in order**, after any number of passes: every node's tasks are those it
had before and one for each of its executions, and the executions are numbered in the order in which
they took place, from the first number on that is above those of all tasks before. If there were
none, they are numbered from zero on, and the order of execution that is read off the record is the
order of the executions. -/
theorem record_in_order (chronicle : Chronicle d tried ran run) :
    InOrder d tried ran run.state.tasks ∧ (∀ u ∈ d.all, u.2.index < d.nextIndex) ∧
    (d.nextIndex = 0 ∨ ∃ u ∈ d.all, d.nextIndex = u.2.index + 1) ∧
    (d = [] → ran.map (fun u => u.2.index) = List.range ran.length ∧
      run.state.tasks.order = ran.map Prod.fst) := by
  obtain ⟨tasks, numbers, serves⟩ := chronicle.recorded
  have order := fun distinct => RunData.order_recordAll (d := d) distinct numbers
  refine ⟨⟨serves, fun node => ?_, ?_, numbers, fun distinct => ?_⟩,
    fun u => RunData.index_lt_nextIndex, RunData.nextIndex_attained d, ?_⟩
  · rw [tasks, RunData.tasks_recordAll]
  · rw [tasks]
    exact RunData.all_recordAll_perm d ran
  · rw [tasks, order distinct]
  · rintro rfl
    rw [tasks, order List.nodup_nil, numbers, RunData.nextIndex_nil, RunData.order_nil,
      List.range_eq_range']
    exact ⟨rfl, rfl⟩

end Engine

/-- On the detour Start is executed, and after the pause J; the disabled node A is not. -/
theorem detour_in_order : ∃ tried ran, tried.map Entry.node = ["Start", "J"] ∧
    ran.map (fun u => u.2.index) = [0, 1] ∧ Engine.InOrder
      [] tried ran Detour.failed.state.tasks := by
  have graph := (Engine.prepare_graph (Detour.prepared Detour.nap)).1
  have paused := Engine.Chronicle.first Detour.silent graph rfl Detour.pauses
  have failed := Engine.Chronicle.resumed paused (.refl _) Detour.silent graph Detour.fails
  exact ⟨_, _, by decide, by decide, (Engine.record_in_order failed).1⟩

end Conveyor
