/-
What a node got, and what it would get again.

A run can be repeated from a node on. The node is then given what `Graph.rebuild` makes of the tasks
that are on record, and not what it was given in the run itself, which is not kept. Here it is shown
that the two are the same in a workflow without cycles and without disabled nodes: list by list,
with the empty lists of ports that got nothing, and with the same sources in the same order.

An entry gathers the outputs of all inbound connections at the moment at which it is pushed
(`Delivered`). That these are still the last outputs in the end is not for free: a node that is
executed again would overwrite its output. But without cycles a node is executed once (`Orderly`),
so the only task it ever has is the one whose output was gathered.
-/
import Conveyor.Proofs.Engine.Layout
import Conveyor.Proofs.Engine.Provenance
import Conveyor.Proofs.Engine.Slots
import Conveyor.Proofs.Engine.Trail

set_option autoImplicit false

namespace Conveyor

/-! ## Gathering what was delivered -/

namespace Entry

/-- An entry gathers what is on its ports, if it has a list for every port that is wired. -/
theorem eq_gather {en : Entry} {links : List Inbound} {f : Inbound → Items}
    (sources : en.sources = links.map Inbound.toSource) (width : en.inputs.length = portCount links)
    (inputs : ∀ k, en.inputs.getD k [] = (links.filter (·.input == k)).flatMap f) :
    en = gather en.node links f :=
  congrArg₂ (Entry.mk en.node) (eq_gather_inputs width inputs en.node) sources

end Entry

namespace Graph

/-- With a task of every source, and one source at least, rebuilding gathers the last outputs of all
connections. -/
theorem rebuild_eq_gather {g : Graph} {d : RunData} {name : String} (some : g.inbound name ≠ [])
    (all : ∀ l ∈ g.inbound name, (d.lastTask? l.source).isSome) :
    g.rebuild d name =
      Entry.gather name (g.inbound name) fun l =>
        ((d.lastTask? l.source).map (·.port l.output)).getD [] := by
  rw [rebuild]
  simp only [List.filter_eq_self.2 all, List.isEmpty_iff, some, if_false]

end Graph

namespace Engine

variable {e : Engine} {x : Execution} {φ₀ φ : Phase} {h past : List Entry} {en : Entry}
  {p p₀ : Pass} {g : Graph} {d : RunData} {starts : List String}

/-- A delivered entry has a list for every port that is wired, and no more. -/
theorem Delivered.length_inputs (delivered : Delivered g h d en) :
    en.inputs.length = portCount (g.inbound en.node) := by
  obtain ⟨⟨l, hl, last⟩, within⟩ := delivered.width
  obtain ⟨l', hl', highest⟩ := exists_portCount (List.ne_nil_of_mem hl)
  have below := lt_portCount hl
  have above := within l' hl'
  omega

theorem Delivered.eq_gather (delivered : Delivered g h d en) :
    en = Entry.gather en.node (g.inbound en.node) fun l =>
    ((g.lastOutput? h d l.source).getD []).getD l.output [] :=
  Entry.eq_gather delivered.sources delivered.length_inputs delivered.inputs

/-! ## One task for each node -/

/-- A step records nothing, or a task of the node that it holds. -/
theorem Effect.tasks {φ' : Phase} {p' : Pass} (effect : Effect e x φ φ' p p') :
    p'.state.tasks = p.state.tasks ∨
      ∃ en n t, Holds x φ en n ∧ p'.state.tasks = p.state.tasks.record n.name t := by
  cases effect with
  | idle _ state => exact .inl (by rw [state])
  | refused _ _ state => exact .inl (by rw [state]; rfl)
  | lingers _ _ _ _ state => exact .inl (by rw [state]; rfl)
  | bypassed _ _ _ _ state => exact .inl (by rw [state])
  | failed holds _ _ _ _ state => exact .inr ⟨_, _, _, holds, by rw [state]; rfl⟩
  | completed holds _ _ _ _ state => exact .inr ⟨_, _, _, holds, by rw [state]; rfl⟩

/-- A node whose output is not kept has no task. -/
theorem Current.tasks_eq_nil {s : RunState} {n : Node} (current : Current g h s)
    (known : g.node? n.name = some n) (enabled : n.disabled = false)
    (fresh : s.agenda.outputs.contains n.name = false) :
    s.tasks.tasks n.name = [] := by
  have none : (s.tasks.lastTask? n.name).map Task.output = none := by
    have kept := current.outputs n.name
    rw [Option.isNone_iff_eq_none.1 (Option.isSome_eq_false_iff.1 fresh)] at kept
    simpa only [Graph.lastOutput?, known, Option.bind_some, enabled, Bool.false_eq_true,
      if_false] using kept.symm
  exact List.getLast?_eq_none_iff.1 (Option.map_eq_none_iff.1 none)

/-- A pass that has begun in order stays in order. -/
theorem Leads.orderly (hk : e.Watched) (apart : x.graph.Apart starts) (hp₀ : φ₀.pass? = some p₀)
    (begun : Orderly x.graph starts [] φ₀ p₀) (run : Leads e x φ₀ h φ) (hp : φ.pass? = some p) :
    Orderly x.graph starts h φ p :=
  Leads.induct hk (Orderly x.graph starts) (fun _ hq => Option.some.inj (hp₀.symm.trans hq) ▸ begun)
    (fun _ hq _ orderly effect => orderly.step apart hq effect)
    (fun orderly => ⟨orderly.once, orderly.reached, orderly.origin, orderly.done, nofun⟩)
    (fun orderly => ⟨orderly.once, orderly.reached, orderly.origin, orderly.done, fun lingers => by
      obtain ⟨-, rfl, rfl, -⟩ := Phase.lingering.inj lingers
      exact orderly.held rfl⟩) run hp

/-- **A run in order leaves one task for each node at most.** -/
theorem Leads.length_tasks (hk : e.Watched) (hp₀ : φ₀ = .ready p₀) (fresh : Fresh p₀)
    (apart : x.graph.Apart starts) (begun : Orderly x.graph starts [] φ₀ p₀)
    (run : Leads e x φ₀ h φ) (hp : φ.pass? = some p) (name : String) :
    (p.state.tasks.tasks name).length ≤ 1 := by
  refine Leads.induct hk (fun _ _ p => (p.state.tasks.tasks name).length ≤ 1) (fun q hq => ?_)
    (fun {h φ q q'} run hq hq' single effect => ?_) (fun single => single)
      (fun single => single) run hp
  · subst hp₀
    obtain rfl := Option.some.inj hq
    rw [fresh.tasks]
    exact Nat.zero_le 1
  · rcases effect.tasks with same | ⟨en, n, t, holds, recorded⟩
    · rwa [same]
    · by_cases other : name = n.name
      -- The output of the node in hand is not kept, so this is its first task.
      · have orderly := run.orderly hk apart (by rw [hp₀]; rfl) begun hq
        obtain ⟨_, node, new⟩ := orderly.holds hq holds
        have settles := run.settles hk hp₀ fresh hq
        obtain ⟨known, enabled, _⟩ := holds.last hq settles.aligned
        have blank :=
          (settles.current (settles.clean holds.going)).tasks_eq_nil (node ▸ known) enabled new
        rw [other, recorded, RunData.tasks_record_self, blank]
        exact Nat.le_refl 1
      · rwa [recorded, RunData.tasks_record_of_ne other]

/-! ## What an entry gathered is still there -/

/-- The task that a node had when an entry was pushed is the one that it has left. -/
theorem Leads.last_task (hk : e.Watched)
    (enabled : ∀ n ∈ x.graph.workflow.nodes, n.disabled = false)
    (single : ∀ name, (p.state.tasks.tasks name).length ≤ 1) (after : Leads e x φ₀ h φ)
    (hp₀ : φ₀.pass? = some p₀) (hp : φ.pass? = some p) {name : String}
    (completed : x.graph.Completed past p₀.state.tasks name) :
    ∃ t, p.state.tasks.lastTask? name = some t ∧ x.graph.lastOutput? past p₀.state.tasks name
      = some t.output := by
  obtain ⟨n, node, done⟩ := completed
  have on := enabled n (Graph.mem_of_node? node)
  rw [if_neg (by rw [on]; exact Bool.false_ne_true)] at done
  obtain ⟨u, hu, -⟩ := done
  obtain ⟨t, last⟩ := Option.isSome_iff_exists.1 (List.getLast?_isSome.2 (List.ne_nil_of_mem hu))
  have kept := after.mem_tasks hk hp₀ hp (List.mem_of_getLast? last)
  obtain ⟨t', only⟩ := List.length_eq_one_iff.1
    (Nat.le_antisymm (single name) (List.length_pos_of_mem kept))
  obtain rfl : t = t' := List.mem_singleton.1 (only ▸ kept)
  refine ⟨t, by rw [RunData.lastTask?, only]; rfl, ?_⟩
  have last : p₀.state.tasks.lastTask? name = some t := last
  simp only [Graph.lastOutput?, node, Option.bind_some, on, Bool.false_eq_true, if_false, last,
    Option.map_some]

/-- **An entry that has arrived is rebuilt as it was.** -/
theorem Arrived.rebuild_eq (hk : e.Watched)
    (enabled : ∀ n ∈ x.graph.workflow.nodes, n.disabled = false)
    (single : ∀ name, (p.state.tasks.tasks name).length ≤ 1) (hp : φ.pass? = some p)
    (arrived : Arrived e x φ₀ h φ en past) : x.graph.rebuild p.state.tasks en.node = en := by
  cases arrived with
  | pushed before pass pass' moment kept stack mem delivered after history =>
    have left : ∀ l ∈ x.graph.inbound en.node, ∃ t, p.state.tasks.lastTask? l.source = some t ∧
        x.graph.lastOutput? past _ l.source = some t.output := fun l hl =>
      after.last_task hk enabled single pass' hp (delivered.completed l hl)
    obtain ⟨⟨l₀, hl₀, -⟩, -⟩ := delivered.width
    rw [Graph.rebuild_eq_gather (List.ne_nil_of_mem hl₀) fun l hl => by
      obtain ⟨t, last, -⟩ := left l hl
      rw [last]
      rfl]
    refine Eq.trans (Entry.gather_congr fun l hl => ?_) delivered.eq_gather.symm
    obtain ⟨t, last, output⟩ := left l hl
    rw [last, output]
    rfl

/-! ## Whole runs -/

/-- What was taken for a node that is no start has arrived. -/
theorem Accounted.arrived {roots : List Entry} {names : List String}
    (accounted : Accounted e x φ₀ roots h φ p) (starts : ∀ en ∈ roots, en.node ∈ names)
    (taken : en ∈ h) (later : en.node ∉ names) :
    ∃ past, Arrived e x φ₀ h φ en past := by
  have fed : en.sources ≠ [] := fun none => by
    refine later
      (starts en (accounted.started.subset (List.mem_filter.2 ⟨List.mem_append_left _ taken, ?_⟩)))
    rw [none]
    rfl
  obtain ⟨a, b, split⟩ := List.append_of_mem taken
  obtain ⟨past, -, arrived⟩ := accounted.taken a en ⟨b, by rw [split, List.append_assoc]; rfl⟩ fed
  exact ⟨past, arrived⟩

/-- **What is rebuilt is what was taken.** In a workflow without cycles, whose nodes are all
enabled, a run is started at a node that is named or at triggers that nothing leads to. Every node
that it has executed and did not start at was executed once, with the only entry that the run has
taken for it; and this entry, with all its input lists and all its sources, is what is rebuilt for
the node from the tasks that the run has left. -/
theorem rebuilt_as_taken (hk : e.Watched) {w : Workflow} (acyclic : w.Acyclic)
    (enabled : ∀ n ∈ w.nodes, n.disabled = false) {id : String} {mode : RunMode}
    {startNode : Option String} {items : Option Items} (roots : startNode.isSome ∨ e.RootTriggers w)
    {names : List String} {ts : List (String × Task)} {run : Run} (graph : w.graph = .ok g)
    (starts : e.startNodes g startNode = .ok names)
    (completes : e.Completes w (.start id mode startNode items) h ts run) {name : String}
    (executed : 0 < run.taskCount name) (later : name ∉ names) :
    ∃ en t, h.filter (·.node == name) = [en] ∧ run.state.tasks.tasks name = [t] ∧
      t.sources = en.sources ∧ g.rebuild run.state.tasks name = en := by
  cases completes with
  | @intro x s canceled p c prepared trail =>
    obtain ⟨graph', names', starts', rfl⟩ := prepare_start prepared
    obtain rfl := Except.ok.inj (graph.symm.trans graph')
    obtain rfl := Except.ok.inj (starts.symm.trans starts')
    obtain rfl := workflow_of_graph graph
    -- Nothing leads back to a start, so that no start is pushed and no node is taken twice.
    obtain ⟨nodup, -, apart⟩ := startNodes_apart acyclic roots starts
    obtain ⟨p₀, hp₀, fresh, sub, sourceless, -⟩ := begin_start hk prepared canceled
    have begun :
        Orderly x.graph names [] (e.begin x (RunState.starting startNode names items) canceled)
        p₀ :=
      hp₀ ▸ .begin prepared starts nodup fresh.outputs sub
    have leads := trail.leads
    have orderly := leads.orderly hk apart (by rw [hp₀]; rfl) begun rfl
    have single := leads.length_tasks hk hp₀ fresh apart begun rfl
    have accounted :=
      leads.accounted hk hp₀ fresh (fun en hen => sourceless en (sub.subset hen)) rfl
    obtain ⟨stack, -, final⟩ := hk.finish x p c
    have tasks : (e.finish x p c).1.state.tasks = p.state.tasks := by rw [final]; rfl
    rw [Run.taskCount, tasks] at executed
    obtain ⟨t, only⟩ := List.length_eq_one_iff.1 (Nat.le_antisymm (single name) executed)
    obtain ⟨a, en, early, rfl, sources, -⟩ :=
      (leads.aligned hk hp₀ fresh.index fresh.tasks rfl).2 name t
      (only ▸ List.mem_singleton_self t)
    have taken : en ∈ h := early.subset (List.mem_append_right a (List.mem_singleton_self en))
    have root : ∀ en ∈ p₀.state.agenda.stack, en.node ∈ names := fun en hen => by
      obtain ⟨name, hname, rfl⟩ := List.mem_map.1 (sub.subset hen)
      exact hname
    -- The entry was taken for a node that is no start, so it was pushed when all its sources were
    -- there.
    obtain ⟨past, arrived⟩ := accounted.arrived root taken later
    have once := orderly.once.sublist ((List.sublist_append_left h _).map Entry.node)
    rw [tasks]
    exact ⟨en, t, Entry.filter_node_of_mem once taken, only, sources,
      arrived.rebuild_eq hk enabled single rfl⟩

end Engine

/-- On the fork, J is taken with a list of items from A and one from B, and gets both again when it
is rebuilt. -/
theorem Fork.join_rebuilt : ∃ run h ts en,
    Fork.engine.Completes (Fork.workflow 0 Fork.upper Fork.lower) Fork.request h ts run ∧
      run.status = .success ∧ 0 < run.taskCount "J" ∧
      (∀ n ∈ Fork.graph.workflow.nodes, n.disabled = false) ∧ h.filter (·.node == "J") = [en] ∧
      en.inputs.length = 2 ∧ Fork.graph.rebuild run.state.tasks "J" = en := by
  obtain ⟨run, log, performs, status, executed, two⟩ : ∃ run log,
      Fork.engine.perform (Fork.workflow 0 Fork.upper Fork.lower) Fork.request false
        = .ok (.run run log) ∧ run.status = .success ∧ 0 < run.taskCount "J" ∧
        (Fork.graph.rebuild run.state.tasks "J").inputs.length = 2 :=
    ⟨_, _, rfl, by decide, by decide, by decide⟩
  obtain ⟨h, ts, completes⟩ := Engine.completes_of_perform performs
  have enabled : ∀ n ∈ (Fork.workflow 0 Fork.upper Fork.lower).nodes, n.disabled = false := by
    decide
  have starts : Fork.engine.startNodes Fork.graph none = .ok ["Start"] := rfl
  obtain ⟨en, t, taken, -, -, rebuilt⟩ :=
    Engine.rebuilt_as_taken Fork.silent.watched (Fork.acyclic 0 _ _) enabled
    (.inr (Fork.roots 0 _ _)) (Engine.graph_of_workflow Fork.graph) starts completes executed
      (by decide)
  exact ⟨run, h, ts, en, completes, status, executed, enabled, taken, rebuilt ▸ two, rebuilt⟩

end Conveyor
