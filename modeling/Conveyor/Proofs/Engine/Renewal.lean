/-
The law of a run that is repeated.

A run that is repeated from a node on begins with what the earlier run has left (`Finished`): the
node gets the last outputs of its sources once more, and the last outputs of all nodes are taken
over, so that a join behind the node does not wait for sources that do not run again. But neither
does it wait for those that do, since all of them have an output at once. It is put on the stack
whenever one of its sources completes that has items for it. Only disabled nodes have nothing on
record, and a join behind them waits until they were taken again.

`Renewal` is what holds of such a run as long as it takes only what the earlier run has taken, with
the same items. Its law is `count`: a node is taken once for every entry that brings it, and an
entry brings a node that it feeds if the disabled sources of the node have been taken by then
(`Dataflow.Brings`). Nodes that hand on what they did before leave the outputs as they were, so the
order of the run has a part in the law only where a source is disabled.
-/
import Conveyor.Proofs.Engine.Layout
import Conveyor.Proofs.Engine.Onward
import Mathlib.Data.List.Infix

set_option autoImplicit false

namespace Conveyor

/-- What a run that is repeated takes over is the last output of every node. -/
theorem RunData.get?_lastOutputs {d : RunData} (solid : d.Solid) (name : String) :
    d.lastOutputs.get? name = (d.lastTask? name).map Task.output := by
  induction d with
  | nil => rfl
  | cons p d ih =>
    obtain ⟨k, ts⟩ := p
    have rest := ih fun q hq => solid q (List.mem_cons_of_mem _ hq)
    -- The first node has a last task, which is the one that is taken over.
    obtain ⟨t, last⟩ : ∃ t, ts.getLast? = some t :=
      ⟨_, List.getLast?_eq_some_getLast (solid (k, ts) List.mem_cons_self)⟩
    simp only [lastOutputs, lastTask?, tasks, List.filterMap_cons, last, Option.map_some,
      Named.get?_cons] at rest ⊢
    split
    · simp only [Option.getD_some, last, Option.map_some]
    · exact rest

/-- A node is there and disabled. -/
def Graph.Off (g : Graph) (name : String) : Prop :=
  ∃ nd, g.node? name = some nd ∧ nd.disabled = true

/-- An entry is for the same node as one of some entries, and carries the same items. -/
def Entry.Repeats (en : Entry) (h : List Entry) : Prop :=
  ∃ en₁ ∈ h, en₁.node = en.node ∧ en₁.inputs = en.inputs

namespace Dataflow

variable {D : Dataflow} {h : List Entry} {en : Entry} {name : String}

theorem output?_of_mem (once : (h.map Entry.node).Nodup) (hen : en ∈ h) :
    D.output? h en.node = some (D.handed en) := by
  rw [output?, ← List.head?_filter, Entry.filter_node_of_mem once hen]
  rfl

theorem output?_eq_none (untaken : name ∉ h.map Entry.node) : D.output? h name = none := by
  rw [output?, List.find?_eq_none.2 fun en hen => ?_, Option.map_none]
  simpa using fun same => untaken (List.mem_map.2 ⟨en, hen, same⟩)

end Dataflow

namespace Engine

variable {e : Engine} {told : Node → List Items → Attempt} {x : Execution} {g : Graph}
  {w : Workflow} {h k begun rest : List Entry} {p p' : Pass} {en en₁ en₂ : Entry} {s : RunState}
  {n : String}

/-- What a node hands on is told by its items. -/
theorem handed_congr (node : en₁.node = en₂.node) (inputs : en₁.inputs = en₂.inputs) :
    e.handed told g en₁ = e.handed told g en₂ := by
  simp only [handed, settled, node, inputs]

/-- Whether a run goes on after an entry is told by the node and its items. -/
theorem Passable.congr (passable : Passable e told g en₁) (node : en₁.node = en₂.node)
    (inputs : en₁.inputs = en₂.inputs) : Passable e told g en₂ := by
  rw [Passable, ← node, ← inputs]
  exact passable

/-- Entries that are the same up to their sources feed the same nodes. -/
theorem feeds_congr (node : en₁.node = en₂.node) (inputs : en₁.inputs = en₂.inputs) {name : String}
    (feeds : (e.dataflow told g).feeds en₁ name) : (e.dataflow told g).feeds en₂ name := by
  have same : g.Feeds en₁.node (e.handed told g en₁) name := feeds
  rw [handed_congr node inputs, node] at same
  exact same

/-! ## What a run has left -/

/-- What is left of a run that was started and came to a good end. -/
structure Finished (e : Engine) (told : Node → List Items → Attempt) (g : Graph)
    (begun h : List Entry) (s : RunState) : Prop where
  account : (e.dataflow told g).Account begun h []
  kept : Kept (e.dataflow told g) h s
  passable : ∀ en ∈ h, Passable e told g en
  within : h.length ≤ e.maxIterations
  solid : s.tasks.Solid

/-- A run under way in which every entry has let the run go on. -/
structure Passed (e : Engine) (told : Node → List Items → Attempt) (g : Graph) (k : List Entry)
    (p : Pass) : Prop where
  passable : ∀ en ∈ k, Passable e told g en
  left : p.left + k.length = e.maxIterations
  solid : p.state.tasks.Solid

theorem Passed.step (passed : Passed e told g k p) (passable : Passable e told g en)
    (onward : Onward e told g en rest p p') : Passed e told g (k ++ [en]) p' := by
  refine ⟨fun en' hen' => ?_, ?_, ?_⟩
  · rcases List.mem_append.1 hen' with old | new
    · exact passed.passable en' old
    · rw [List.mem_singleton.1 new]
      exact passable
  · rw [List.length_append, List.length_singleton, ← passed.left, onward.left]
    omega
  · rcases onward.tasks with ⟨_, same⟩ | ⟨t, _, recorded⟩
    · rw [same]
      exact passed.solid
    · rw [recorded]
      exact passed.solid.record _ t

/-- **A run that was started and succeeded is finished.** -/
theorem Finished.of_success {id : String} {mode : RunMode} {startNode : Option String}
    {items : Option Items} {r : Run} {log : HookLog} (silent : e.Silent) (own : e.Local w told)
    (graph : w.graph = .ok g) (acyclic : w.Acyclic) (roots : startNode.isSome ∨ e.RootTriggers w)
    (run : e.perform w (.start id mode startNode items) false = .ok (.run r log))
    (success : r.status = .success) :
    ∃ names, e.startNodes g startNode = .ok names ∧
      Finished e told g (RunState.starting startNode names items).agenda.stack
        (e.entries w (.start id mode startNode items)) r.state := by
  -- What was taken and kept is known from the account of the run, that it went on from its end.
  obtain ⟨x, s, prepared, ends⟩ := prepare_of_perform run
  obtain ⟨empty, account, kept⟩ :=
    Reckoning.of_success silent own acyclic roots prepared ends success
  obtain ⟨graph', names, starts, rfl⟩ := prepare_start prepared
  obtain rfl := Except.ok.inj (graph.symm.trans graph')
  obtain rfl := workflow_of_graph graph
  have taken : e.entries x.graph.workflow (.start id mode startNode items)
      = e.history x (e.begin x (.starting startNode names items) false) := by
    simp only [entries, prepared]
  rw [empty] at account
  rw [taken]
  obtain ⟨P, stops, fine, ended, state⟩ := stops_of_success silent ends success
  obtain ⟨p, begins, begun, _, allowed, going⟩ :=
    silent.begin x (.starting startNode names items) false
  rw [begins] at stops account kept ⊢
  have start : Passed e told x.graph [] p :=
    ⟨fun en hen => absurd hen List.not_mem_nil, by rw [allowed]; rfl, by
      rw [begun]
      exact fun q hq => absurd hq List.not_mem_nil⟩
  obtain ⟨-, passed⟩ := induct_of_stops silent own (Passed e told x.graph)
    (fun passed _ passable onward _ => passed.step passable onward) start rfl going stops fine ended
  have within := Nat.le_trans (Nat.le_add_left _ _) (Nat.le_of_eq passed.left)
  exact ⟨names, starts, account, kept, passed.passable, within, state ▸ passed.solid⟩

namespace Finished

variable (finished : Finished e told g begun h s)
include finished

theorem nodup : (h.map Entry.node).Nodup := finished.account.nodup

/-- Every node that was taken is there. -/
theorem node (hen : en ∈ h) : ∃ nd, g.node? en.node = some nd :=
  let ⟨nd, node, _⟩ := finished.passable en hen
  ⟨nd, node⟩

/-- The tasks of a node that was taken are those of its entry. -/
theorem tasks_of_mem (hen : en ∈ h) :
    (s.tasks.tasks en.node).map Task.unnumbered = e.written told g en := by
  rw [finished.kept.tasks, Entry.filter_node_of_mem finished.nodup hen, List.flatMap_singleton]
  rfl

/-- A node that was not taken has no tasks. -/
theorem tasks_of_not_mem {name : String} (untaken : name ∉ h.map Entry.node) :
    s.tasks.tasks name = [] := by
  have none : h.filter (·.node == name) = [] := by
    refine List.filter_eq_nil_iff.2 fun en hen => ?_
    simpa using fun same => untaken (List.mem_map.2 ⟨en, hen, same⟩)
  have tasks := finished.kept.tasks name
  rw [none] at tasks
  exact List.map_eq_nil_iff.1 tasks

/-- The run that is repeated takes over what the nodes have handed on, unless they are disabled. -/
theorem lastOutputs {name : String} (on : ¬ g.Off name) :
    s.tasks.lastOutputs.get? name = (e.dataflow told g).output? h name := by
  rw [RunData.get?_lastOutputs finished.solid]
  by_cases taken : name ∈ h.map Entry.node
  · obtain ⟨en, hen, rfl⟩ := List.mem_map.1 taken
    obtain ⟨nd, node⟩ := finished.node hen
    have enabled : nd.disabled = false :=
      Bool.eq_false_iff.2 fun disabled => on ⟨nd, node, disabled⟩
    have tasks := finished.tasks_of_mem hen
    simp only [written, node, Option.map_some, Option.getD_some, enabled, Bool.false_eq_true,
      if_false] at tasks
    obtain ⟨t, single, plain⟩ := List.map_eq_singleton_iff.1 tasks
    rw [Dataflow.output?_of_mem finished.nodup hen, RunData.lastTask?, single]
    show some t.output = some (e.handed told g en)
    simp only [handed, node, Option.map_some, Option.getD_some, enabled,
      Bool.false_eq_true, if_false]
    exact congrArg some (congrArg Task.output plain :)
  · rw [RunData.lastTask?, finished.tasks_of_not_mem taken, Dataflow.output?_eq_none taken]
    rfl

/-- Of disabled nodes there is nothing on record. -/
theorem lastOutputs_off {name : String} (off : g.Off name) :
    s.tasks.lastOutputs.get? name = none := by
  have none : s.tasks.tasks name = [] := by
    by_cases taken : name ∈ h.map Entry.node
    · obtain ⟨en, hen, rfl⟩ := List.mem_map.1 taken
      obtain ⟨nd, node, disabled⟩ := off
      have tasks := finished.tasks_of_mem hen
      rw [(handed_of_disabled e told node disabled).2] at tasks
      exact List.map_eq_nil_iff.1 tasks
    · exact finished.tasks_of_not_mem taken
  rw [RunData.get?_lastOutputs finished.solid, RunData.lastTask?, none]
  rfl

/-- An entry that repeats one of the run hands on what that one did. -/
theorem output?_of_repeats (repeats : en.Repeats h) :
    (e.dataflow told g).output? h en.node = some (e.handed told g en) := by
  obtain ⟨en₁, hen₁, node, inputs⟩ := repeats
  rw [← node, Dataflow.output?_of_mem finished.nodup hen₁, ← handed_congr node inputs]
  rfl

/-- A node that was taken and fed has gathered what its sources have handed on. -/
theorem gathered_of_fed (hen₁ : en₁ ∈ h) (hen₂ : en₂ ∈ h)
    (feeds : (e.dataflow told g).feeds en₂ en₁.node) :
    (e.dataflow told g).Complete h en₁.node ∧ en₁ = (e.dataflow told g).gathered h en₁.node := by
  rcases finished.account.due hen₁ with start | ⟨complete, _, gathered⟩
  · exact absurd feeds (finished.account.apart en₂ (List.mem_append_left [] hen₂) en₁ start)
  · exact ⟨complete, gathered⟩

/-- What feeds a node was taken before it. -/
theorem mem_of_feeds {a : List Entry} (early : a ++ [en] <+: h) (hen₁ : en₁ ∈ h)
    (feeds : (e.dataflow told g).feeds en₁ en.node) : en₁ ∈ a := by
  rcases finished.account.taken a en early with begins | ⟨all, _, _⟩
  · exact absurd feeds (finished.account.apart en₁ (List.mem_append_left [] hen₁) en begins)
  · obtain ⟨l, hl, source⟩ := (e.dataflow told g).source feeds
    obtain ⟨en₂, hen₂, source₂⟩ := all l hl
    have taken : en₂ ∈ h := early.subset (List.mem_append_left [en] hen₂)
    exact Entry.eq_of_node_eq finished.nodup taken hen₁ (source₂.trans source) ▸ hen₂

/-- A node is rebuilt with what it got, unless the run began with it or one of its sources is
disabled. -/
theorem rebuild_eq (hen : en ∈ h) (later : en ∉ begun)
    (on : ∀ l ∈ g.inbound en.node, ¬ g.Off l.source) :
    g.rebuild s.tasks en.node = en := by
  obtain ⟨complete, fed, gathered⟩ := (finished.account.due hen).resolve_left later
  -- Every source has left a task, whose output is what it has handed on.
  have last : ∀ l ∈ g.inbound en.node, ∃ t, s.tasks.lastTask? l.source = some t ∧
      (e.dataflow told g).output? h l.source = some t.output := by
    intro l hl
    obtain ⟨en₁, hen₁, node₁⟩ := complete l hl
    have output := finished.lastOutputs (on l hl)
    rw [RunData.get?_lastOutputs finished.solid, ← node₁,
      Dataflow.output?_of_mem finished.nodup hen₁] at output
    obtain ⟨t, task, same⟩ := Option.map_eq_some_iff.1 output
    rw [← node₁, Dataflow.output?_of_mem finished.nodup hen₁]
    exact ⟨t, task, congrArg some same.symm⟩
  have all : (g.inbound en.node).filter (fun l => (s.tasks.lastTask? l.source).isSome)
      = g.inbound en.node := by
    refine List.filter_eq_self.2 fun l hl => ?_
    obtain ⟨t, task, _⟩ := last l hl
    rw [task]
    rfl
  have some : g.inbound en.node ≠ [] := by
    obtain ⟨en₁, _, feeds⟩ := fed.mem
    obtain ⟨l, hl, _⟩ := (e.dataflow told g).source feeds
    exact List.ne_nil_of_mem hl
  rw [Graph.rebuild]
  simp only [all, List.isEmpty_iff, some, if_false]
  rw [gathered]
  refine Entry.gather_congr fun l hl => ?_
  obtain ⟨t, task, output⟩ := last l hl
  rw [task, output]
  rfl

end Finished

end Engine

/-! ## What is taken again -/

namespace Graph

@[simp] theorem rebuild_node (g : Graph) (tasks : RunData) (name : String) :
    (g.rebuild tasks name).node = name := by
  rw [rebuild]
  split <;> rfl

/-- Nothing that a node reaches leads back to it. -/
theorem Reached.not_back {g : Graph} {n name : String} (acyclic : g.workflow.Acyclic)
    (reached : g.Reached [n] name) {l : Inbound} (hl : l ∈ g.inbound n) : l.source ≠ name := by
  intro source
  exact apart_singleton acyclic n name n reached (List.mem_singleton_self n)
    (link_iff.2 ⟨l, hl, source⟩)

/-- What a node that is reached leads to is reached as well. -/
theorem Reached.tail {g : Graph} {starts : List String} {a b : String}
    (reached : g.Reached starts a) {l : Inbound} (hl : l ∈ g.inbound b) (source : l.source = a) :
    g.Reached starts b := by
  obtain ⟨s, hs, path⟩ := reached
  exact ⟨s, hs, path.tail (link_iff.2 ⟨l, hl, source⟩)⟩

/-- The disabled sources of a node are among some nodes. -/
def Restored (g : Graph) (among : String → Prop) (name : String) : Prop :=
  ∀ l ∈ g.inbound name, g.Off l.source → among l.source

/-- A disabled node that can be reached is the only source of whatever it leads to. -/
def Undivided (g : Graph) (n : String) : Prop :=
  ∀ name, ∀ l ∈ g.inbound name, g.Reached [n] l.source → g.Off l.source →
    ∀ l' ∈ g.inbound name, l'.source = l.source

end Graph

namespace Dataflow

/-- A node that is fed when a run is repeated from `n` on may be taken: all its sources were taken
in the earlier run, and the disabled ones, of which nothing is on record, can be taken again. -/
def Rejoins (D : Dataflow) (g : Graph) (n : String) (h : List Entry) (name : String) : Prop :=
  D.Complete h name ∧ g.Restored (g.Reached [n]) name

/-- When a run is repeated and has taken the entries `a` again, the last of them brings a node onto
the stack: it feeds the node, all sources of the node were taken in the earlier run, and the
disabled ones have been taken again. -/
def Brings (D : Dataflow) (g : Graph) (h a : List Entry) (name : String) : Prop :=
  (∃ en ∈ a.getLast?, D.feeds en name) ∧ D.Complete h name ∧ g.Restored (· ∈ a.map Entry.node) name

/-- Why an entry is taken after some others when a run is repeated: the repetition begins with it,
or one of the others has brought its node, which has gathered what the earlier run has left. -/
def Renewed (D : Dataflow) (g : Graph) (h : List Entry) (first : Entry) (a : List Entry)
    (en : Entry) : Prop :=
  en = first ∨ (en = D.gathered h en.node ∧ ∃ b, b <+: a ∧ D.Brings g h b en.node)

variable {D : Dataflow} {g : Graph} {h a : List Entry} {first en : Entry} {name : String}

theorem Renewed.append (renewed : D.Renewed g h first a en) (b : List Entry) :
    D.Renewed g h first (a ++ b) en :=
  renewed.imp_right fun ⟨gathered, c, early, brings⟩ =>
    ⟨gathered, c, early.trans (List.prefix_append a b), brings⟩

theorem brings_concat : D.Brings g h (a ++ [en]) name ↔
    D.feeds en name ∧ D.Complete h name ∧ g.Restored (· ∈ (a ++ [en]).map Entry.node) name := by
  rw [Brings, List.getLast?_concat]
  simp only [Option.mem_def, Option.some.injEq, exists_eq_left']

/-- Whatever is brought was brought by the last entry. -/
theorem Brings.last (brings : D.Brings g h a name) : ∃ b en, a = b ++ [en] ∧ D.feeds en name := by
  obtain ⟨en, last, feeds⟩ := brings.1
  obtain ⟨b, rfl⟩ := List.getLast?_eq_some_iff.1 last
  exact ⟨b, en, rfl, feeds⟩

end Dataflow

namespace Engine

open scoped Classical in
/-- A run that is repeated from the node `n` on and has taken the entries `k`, all of which repeat
entries `h` of the earlier run. -/
structure Renewal (e : Engine) (told : Node → List Items → Attempt) (g : Graph) (n : String)
    (h : List Entry) (old : RunData) (k : List Entry) (s : RunState) : Prop where
  reached : ∀ en ∈ k ++ s.agenda.stack, g.Reached [n] en.node
  /-- The outputs are those of the earlier run; disabled nodes have one only when they were taken
  again. -/
  outputs : ∀ name, (g.Off name → name ∈ k.map Entry.node) →
    s.agenda.outputs.get? name = (e.dataflow told g).output? h name
  absent : ∀ name, g.Off name → name ∉ k.map Entry.node → s.agenda.outputs.get? name = none
  tasks : ∀ name, ∃ new, s.tasks.tasks name = old.tasks name ++ new ∧
    new.map Task.unnumbered = (k.filter (·.node == name)).flatMap (e.written told g)
  taken : ∀ a en, a ++ [en] <+: k → (e.dataflow told g).Renewed g h (g.rebuild old n) a en
  stacked : ∀ en ∈ s.agenda.stack, (e.dataflow told g).Renewed g h (g.rebuild old n) k en
  /-- A node is taken once for every entry that brings it. -/
  count : ∀ name, ((k ++ s.agenda.stack).map Entry.node).count name = (if name = n then 1 else 0) +
    k.inits.countP fun a => (e.dataflow told g).Brings g h a name

variable {e : Engine} {told : Node → List Items → Attempt} {x : Execution} {g : Graph}
  {w : Workflow} {h k begun rest : List Entry} {p p' : Pass} {en : Entry} {s s' : RunState}
  {n name : String} {old : RunData}

/-- What a completion pushes in a run that is repeated: the nodes that it brings. -/
theorem Renewal.mem_pushes (renewal : Renewal e told g n h old k s)
    (finished : Finished e told g begun h s') (repeats : en.Repeats h) (rest : List Entry)
    (en' : Entry) :
    en' ∈ g.pushes (s.withStack rest).agenda en.node (e.handed told g en) ↔
      (e.dataflow told g).Brings g h (k ++ [en]) en'.node ∧
        en' = (e.dataflow told g).gathered h en'.node := by
  rw [Dataflow.brings_concat, and_assoc]
  by_cases feeds : (e.dataflow told g).feeds en en'.node
  · by_cases restored : g.Restored (· ∈ (k ++ [en]).map Entry.node) en'.node
    · rw [and_iff_left restored]
      refine mem_pushes_of_outputs rfl fun l hl => ?_
      rw [Graph.complete_outputs, Named.get?_insert]
      by_cases same : l.source = en.node
      · rw [if_pos same, same, finished.output?_of_repeats repeats]
      · rw [if_neg same]
        refine renewal.outputs l.source fun off => ?_
        have taken := restored l hl off
        rw [List.map_append, List.mem_append] at taken
        exact taken.resolve_right fun last => same (List.mem_singleton.1 last)
    · refine iff_of_false (fun pushed => restored fun l hl off => ?_) fun due => restored due.2.1.2
      -- A disabled source that was not taken has no output, so the join would not have come
      -- together.
      by_contra untaken
      simp only [List.map_append, List.mem_append, not_or] at untaken
      have kept := (Graph.mem_pushes.1 pushed).2.1 l hl
      have other : l.source ≠ en.node := fun same => untaken.2 (same ▸ List.mem_singleton_self _)
      rw [Graph.complete_outputs, Named.contains, Named.get?_insert, if_neg other] at kept
      have none : (s.withStack rest).agenda.outputs.get? l.source = none :=
        renewal.absent l.source off untaken.1
      rw [none] at kept
      exact Bool.false_ne_true kept
  · refine iff_of_false (fun pushed => feeds (Graph.mem_pushes.1 pushed).1) fun due => feeds due.1

/-- A run that is repeated begins with the node and what the earlier run has left. -/
theorem Renewal.begin (finished : Finished e told g begun h s') :
    Renewal e told g n h s'.tasks [] (RunState.repeating g n s'.tasks) := by
  classical
  have node : (g.rebuild s'.tasks n).node = n := g.rebuild_node s'.tasks n
  refine ⟨fun en hen => ?_, fun name on => finished.lastOutputs fun off =>
    List.not_mem_nil (on off), fun name off _ => finished.lastOutputs_off off,
    fun name => ⟨[], (List.append_nil _).symm, rfl⟩, fun a en taken => ?_,
    fun en hen => .inl (List.mem_singleton.1 hen), fun name => ?_⟩
  · rw [List.mem_singleton.1 hen, node]
    exact ⟨n, List.mem_singleton_self n, .refl⟩
  · exact absurd (List.prefix_nil.1 taken)
      (List.append_ne_nil_of_right_ne_nil a (List.cons_ne_nil en []))
  · have none : ([] : List Entry).inits.countP (fun a => (e.dataflow told g).Brings g h a name)
        = 0 := by
      refine List.countP_eq_zero.2 fun a ha brings => ?_
      obtain rfl := List.prefix_nil.1 ((List.mem_inits a []).1 ha)
      obtain ⟨en, last, _⟩ := (of_decide_eq_true brings).1
      exact nomatch last
    rw [none]
    show [(g.rebuild s'.tasks n).node].count name = _
    rw [node, List.count_singleton, Nat.add_zero]
    simp only [beq_iff_eq]
    exact if_congr eq_comm rfl rfl

/-- What was taken again is the node that the repetition began with, or was brought by something
that was taken again. -/
theorem Renewal.renewed (renewal : Renewal e told g n h old k s) (hen : en ∈ k) :
    en = g.rebuild old n ∨ ∃ b, b <+: k ∧ (e.dataflow told g).Brings g h b en.node := by
  obtain ⟨a, b, whole⟩ := List.append_of_mem hen
  have taken := prefix_of_append_cons whole.symm
  rcases renewal.taken a en taken with first | ⟨_, b, early, brings⟩
  · exact .inl first
  · exact .inr ⟨b, early.trans ((List.prefix_append a [en]).trans taken), brings⟩

/-- A repetition that has come to its end has taken the node that it began with. -/
theorem Renewal.mem_start (renewal : Renewal e told g n h old k s) (empty : s.agenda.stack = []) :
    n ∈ k.map Entry.node := by
  have count := renewal.count n
  rw [empty, List.append_nil, if_pos rfl] at count
  rw [← List.count_pos_iff, count]
  exact Nat.add_pos_left Nat.one_pos _

/-- A node that was brought is taken. -/
theorem Renewal.mem_of_brings (renewal : Renewal e told g n h old k s) (empty : s.agenda.stack = [])
    {b : List Entry} (early : b <+: k) (brings : (e.dataflow told g).Brings g h b name) :
    name ∈ k.map Entry.node := by
  classical
  have brought : 0 < k.inits.countP fun a => (e.dataflow told g).Brings g h a name :=
    List.countP_pos_iff.2 ⟨b, (List.mem_inits b k).2 early, decide_eq_true brings⟩
  have count := renewal.count name
  rw [empty, List.append_nil] at count
  rw [← List.count_pos_iff, count]
  exact Nat.add_pos_right _ brought

open scoped Classical in
/-- What a completion pushes for a node is one entry if it brings the node, and none otherwise. -/
theorem Renewal.count_pushes (renewal : Renewal e told g n h old k s)
    (finished : Finished e told g begun h s') (repeats : en.Repeats h) (rest : List Entry)
    (name : String) :
    ((g.pushes (s.withStack rest).agenda en.node (e.handed told g en)).map Entry.node).count name
      = if (e.dataflow told g).Brings g h (k ++ [en]) name then 1 else 0 := by
  have pushes := renewal.mem_pushes finished repeats rest
  split
  · rename_i brings
    refine List.count_eq_one_of_mem (g.nodup_pushes _ _ _) (List.mem_map.2 ?_)
    exact ⟨(e.dataflow told g).gathered h name, (pushes _).2 ⟨brings, rfl⟩, rfl⟩
  · rename_i idle
    refine List.count_eq_zero.2 fun member => idle ?_
    obtain ⟨en', hen', rfl⟩ := List.mem_map.1 member
    exact ((pushes en').1 hen').1

/-- A step that goes on adds the tasks of its entry to those that are written of the entries before
it. -/
theorem Onward.tasks_concat (onward : Onward e told g en rest p p') {ts : List Task}
    (before : ∃ new, p.state.tasks.tasks name = ts ++ new ∧
      new.map Task.unnumbered = (k.filter (·.node == name)).flatMap (e.written told g)) :
    ∃ new, p'.state.tasks.tasks name = ts ++ new ∧
      new.map Task.unnumbered = ((k ++ [en]).filter (·.node == name)).flatMap
        (e.written told g) := by
  obtain ⟨new, tasks, written⟩ := before
  rw [List.filter_append, List.flatMap_append, ← written]
  by_cases same : en.node = name
  · have last : [en].filter (·.node == name) = [en] := by simp [same]
    rw [last, List.flatMap_singleton]
    rcases onward.tasks with ⟨none, kept⟩ | ⟨t, one, recorded⟩
    · exact ⟨new, by rw [kept, tasks], by rw [none, List.append_nil]⟩
    · refine ⟨new ++ [t], ?_, by rw [one, List.map_append, List.map_singleton]⟩
      rw [recorded, same, RunData.tasks_record_self, tasks, List.append_assoc]
  · have last : [en].filter (·.node == name) = [] := by simp [same]
    rw [last, List.flatMap_nil, List.append_nil]
    refine ⟨new, ?_, rfl⟩
    rcases onward.tasks with ⟨_, kept⟩ | ⟨t, _, recorded⟩
    · rw [kept, tasks]
    · rw [recorded, RunData.tasks_record_of_ne (Ne.symm same), tasks]

/-- **A step keeps the law** if the entry that it takes repeats one of the earlier run. -/
theorem Renewal.step (renewal : Renewal e told g n h old k p.state)
    (finished : Finished e told g begun h s') (top : p.state.agenda.stack = en :: rest)
    (repeats : en.Repeats h) (onward : Onward e told g en rest p p') :
    Renewal e told g n h old (k ++ [en]) p'.state := by
  classical
  have pushes := renewal.mem_pushes finished repeats rest
  set pushed := g.pushes (p.state.withStack rest).agenda en.node (e.handed told g en) with hpushed
  have stack : p'.state.agenda.stack = pushed ++ rest := by
    rw [onward.agenda, Graph.complete_stack]
    rfl
  have before : k ++ p.state.agenda.stack = k ++ [en] ++ rest := by
    rw [top, List.append_assoc, List.singleton_append]
  have old : ∀ {en'}, en' ∈ k ++ [en] ++ rest → en' ∈ k ++ p.state.agenda.stack := fun hen' =>
    before ▸ hen'
  have now : en ∈ k ++ [en] := List.mem_append_right k (List.mem_singleton_self en)
  refine ⟨fun en' hen' => ?_, fun name on => ?_, fun name off untaken => ?_, fun name => ?_,
    fun a en' taken => ?_, fun en' hen' => ?_, fun name => ?_⟩
  -- What is pushed is fed by the entry, and so it can be reached from where that can be.
  · rw [stack] at hen'
    rcases List.mem_append.1 hen' with hk | hen'
    · exact renewal.reached en' (old (List.mem_append_left rest hk))
    · rcases List.mem_append.1 hen' with new | hrest
      · obtain ⟨l, hl, source⟩ := (e.dataflow told g).source
          (Dataflow.brings_concat.1 ((pushes en').1 new).1).1
        exact (renewal.reached en (old (List.mem_append_left rest now))).tail hl source
      · exact renewal.reached en' (old (List.mem_append_right _ hrest))
  -- The entry repeats one of the earlier run, so its node has the output that it had then.
  · rw [onward.agenda, Graph.complete_outputs, Named.get?_insert]
    by_cases same : name = en.node
    · rw [if_pos same, same, finished.output?_of_repeats repeats]
    · rw [if_neg same]
      refine renewal.outputs name fun off => ?_
      have taken := on off
      rw [List.map_append, List.mem_append] at taken
      exact taken.resolve_right fun last => same (List.mem_singleton.1 last)
  -- A disabled node that was not taken yet is not the one that is taken now.
  · rw [List.map_append, List.mem_append, not_or] at untaken
    have other : name ≠ en.node := fun same => untaken.2 (same ▸ List.mem_singleton_self _)
    rw [onward.agenda, Graph.complete_outputs, Named.get?_insert, if_neg other]
    exact renewal.absent name off untaken.1
  · exact onward.tasks_concat (renewal.tasks name)
  -- What is taken now was on the stack before.
  · rcases List.prefix_concat_iff.1 taken with same | earlier
    · obtain ⟨rfl, last⟩ := List.append_inj' same rfl
      obtain rfl := List.singleton_inj.1 last
      exact renewal.stacked en' (top ▸ List.mem_cons_self)
    · exact renewal.taken a en' earlier
  · rw [stack] at hen'
    rcases List.mem_append.1 hen' with new | hrest
    · obtain ⟨brings, gathered⟩ := (pushes en').1 new
      exact .inr ⟨gathered, k ++ [en], List.prefix_refl _, brings⟩
    · exact (renewal.stacked en' (top ▸ List.mem_cons_of_mem en hrest)).append [en]
  -- The entry moves from the stack to those taken, and what it pushes is counted for it.
  · have single := renewal.count_pushes finished repeats rest name
    have count := renewal.count name
    have last : (k ++ [en]).inits = k.inits ++ [k ++ [en]] := List.inits_append k [en]
    rw [before] at count
    rw [← hpushed] at single
    simp only [stack, last, List.map_append, List.count_append, List.countP_append,
      List.countP_singleton, decide_eq_true_eq] at count single ⊢
    omega

end Engine

end Conveyor
