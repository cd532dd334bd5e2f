/-
Where the entries on the stack come from.

A run begins with entries for the nodes it starts at. Every other entry was put on the stack by the
completion of a node, and `Delivered` says what holds of it at that moment: it names all inbound
connections of its node as its sources, each of them has completed, its input lists gather their
most recent outputs port by port, and something is in one of them. Completion and most recent output
are read off the history and the tasks, so the statement does not lean on the outputs that the
engine keeps for its joins.

What links the two is `Current`: as long as a run has not failed, the outputs that are kept are the
most recent ones. It is an invariant of every step, and the entries that a completion pushes are
delivered because of it. A node may run many times on a cycle, so an entry is followed to the moment
at which it was pushed (`Arrived`), and its task to the moment at which it was taken; between the
two, nothing is taken back.
-/
import Conveyor.NodeType.Flow
import Conveyor.Proofs.Engine.History

set_option autoImplicit false

namespace Conveyor

namespace Graph

/-! ## Completion, told from what a run has done -/

/-- The most recent output of a node that has completed. The last task of an enabled node has it; a
disabled node hands on the first input of the entry that was taken for it last. -/
def lastOutput? (g : Graph) (h : List Entry) (d : RunData) (name : String) : Option (List Items) :=
  (g.node? name).bind fun n =>
    if n.disabled then ((h.filter (·.node == name)).getLast?).map fun en => [en.inputs.headD []]
    else (d.lastTask? name).map Task.output

/-- A node has completed: a task of it succeeded, or it is disabled and was bypassed. -/
def Completed (g : Graph) (h : List Entry) (d : RunData) (name : String) : Prop :=
  ∃ n, g.node? name = some n ∧
    if n.disabled then ∃ en ∈ h, en.node = name else ∃ t ∈ d.tasks name, t.status = .success

/-- Before anything is done, no node has an output. -/
theorem lastOutput?_nil (g : Graph) (name : String) : g.lastOutput? [] [] name = none := by
  simp only [lastOutput?]
  cases g.node? name with
  | none => rfl
  | some n => cases hd : n.disabled <;> simp [RunData.lastTask?, RunData.tasks, Named.get?_nil]

/-- Bypassing a disabled node makes the first input its most recent output. -/
theorem lastOutput?_bypass {g : Graph} {en : Entry} {n : Node} (node : g.node? en.node = some n)
    (disabled : n.disabled = true) (h : List Entry) (d : RunData) (name : String) :
    g.lastOutput? (h ++ [en]) d name
      = if name = en.node then some [en.inputs.headD []] else g.lastOutput? h d name := by
  by_cases same : name = en.node
  · subst same
    simp only [lastOutput?, node, Option.bind_some, disabled, if_true, List.filter_append,
      List.filter_singleton, beq_self_eq_true, cond_true, List.getLast?_concat, Option.map_some]
  · have other : (en.node == name) = false := by simpa using Ne.symm same
    simp only [lastOutput?, List.filter_append, List.filter_singleton, other, cond_false,
      List.append_nil, if_neg same]

/-- Taking an entry for an enabled node completes nothing. -/
theorem lastOutput?_take {g : Graph} {en : Entry} {n : Node} (node : g.node? en.node = some n)
    (enabled : n.disabled = false) (h : List Entry) (d : RunData) (name : String) :
    g.lastOutput? (h ++ [en]) d name = g.lastOutput? h d name := by
  by_cases same : name = en.node
  · subst same
    simp only [lastOutput?, node, Option.bind_some, enabled, Bool.false_eq_true, if_false]
  · have other : (en.node == name) = false := by simpa using Ne.symm same
    simp only [lastOutput?, List.filter_append, List.filter_singleton, other, cond_false,
      List.append_nil]

/-- The task of an enabled node has its most recent output. -/
theorem lastOutput?_record {g : Graph} {node : String} {n : Node} (known : g.node? node = some n)
    (enabled : n.disabled = false) (h : List Entry) (d : RunData) (t : Task) (name : String) :
    g.lastOutput? h (d.record node t) name
      = if name = node then some t.output else g.lastOutput? h d name := by
  by_cases same : name = node
  · subst same
    simp only [lastOutput?, known, Option.bind_some, enabled, Bool.false_eq_true, if_false,
      RunData.lastTask?_record_self, Option.map_some, if_true]
  · simp only [lastOutput?, RunData.lastTask?_record_of_ne same, if_neg same]

/-- A node with a most recent output has completed, if no task has failed. -/
theorem completed_of_lastOutput? {g : Graph} {h : List Entry} {d : RunData} {name : String}
    (succeeded : ∀ t ∈ d.tasks name, t.status = .success) (out : (g.lastOutput? h d name).isSome) :
    g.Completed h d name := by
  simp only [lastOutput?] at out
  cases node : g.node? name with
  | none => simp only [node, Option.bind_none, Option.isSome_none, Bool.false_eq_true] at out
  | some n =>
    refine ⟨n, node, ?_⟩
    rw [node, Option.bind_some] at out
    split at out
    · rename_i disabled
      rw [if_pos disabled]
      obtain ⟨en, hen⟩ := Option.isSome_iff_exists.1 (Option.isSome_map ▸ out)
      obtain ⟨hmem, hnode⟩ := List.mem_filter.1 (List.mem_of_getLast? hen)
      exact ⟨en, hmem, by simpa using hnode⟩
    · rename_i enabled
      rw [if_neg enabled]
      obtain ⟨t, ht⟩ := Option.isSome_iff_exists.1 (Option.isSome_map ▸ out)
      have hmem : t ∈ d.tasks name := List.mem_of_getLast? ht
      exact ⟨t, hmem, succeeded t hmem⟩

end Graph

namespace Engine

/-! ## Deliveries -/

/-- An entry is what its node gets when the last of its sources has completed, after a run has taken
the entries `h` and recorded the tasks `d`. -/
structure Delivered (g : Graph) (h : List Entry) (d : RunData) (en : Entry) : Prop where
  /-- All inbound connections of the node are there, in their order. -/
  sources : en.sources = (g.inbound en.node).map Inbound.toSource
  completed : ∀ l ∈ g.inbound en.node, g.Completed h d l.source
  /-- There is a list for every port up to the highest one that is wired. -/
  width : (∃ l ∈ g.inbound en.node, l.input + 1 = en.inputs.length) ∧
    ∀ l ∈ g.inbound en.node, l.input < en.inputs.length
  /-- Each port has the most recent outputs of the connections that arrive on it. -/
  inputs : ∀ k, en.inputs.getD k [] = ((g.inbound en.node).filter (·.input == k)).flatMap fun l =>
    ((g.lastOutput? h d l.source).getD []).getD l.output []
  nonempty : ∃ items ∈ en.inputs, items ≠ []

/-- The outputs that a state keeps are the most recent ones, and no task has failed. -/
structure Current (g : Graph) (h : List Entry) (s : RunState) : Prop where
  outputs : ∀ name, s.agenda.outputs.get? name = g.lastOutput? h s.tasks name
  succeeded : ∀ name, ∀ t ∈ s.tasks.tasks name, t.status = .success

/-- **What a completion pushes is delivered.** -/
theorem Current.delivered {g : Graph} {h : List Entry} {s : RunState} {a : Agenda} {m : String}
    {output : List Items} {en : Entry} (current : Current g h s)
    (agenda : s.agenda = g.complete a m output) (pushed : en ∈ g.pushes a m output) :
    Delivered g h s.tasks en := by
  obtain ⟨feeds, complete, gathered⟩ := Graph.mem_pushes.1 pushed
  obtain ⟨l₀, hl₀, hsource, hitems⟩ := feeds.link
  -- The outputs a join looks at are the most recent ones, for the node that has just completed as
  -- well.
  have hout : ∀ l : Inbound, (g.complete a m output).outputOf l.source l.output
      = ((g.lastOutput? h s.tasks l.source).getD []).getD l.output [] := by
    intro l
    rw [← current.outputs l.source, agenda]
    rfl
  refine ⟨?_, fun l hl => ?_, ⟨?_, fun l hl => ?_⟩, fun k => ?_, ?_⟩
  · rw [gathered, Entry.gather_sources, Entry.gather_node]
  · refine Graph.completed_of_lastOutput? (current.succeeded l.source) ?_
    rw [← current.outputs l.source, agenda]
    exact complete l hl
  · rw [gathered, Entry.gather_inputs_length, Entry.gather_node]
    exact exists_portCount (List.ne_nil_of_mem hl₀)
  · rw [gathered, Entry.gather_inputs_length]
    exact lt_portCount hl
  · rw [gathered, Entry.gather_inputs_getD, Entry.gather_node]
    simp only [hout]
  · rw [gathered]
    refine Entry.gather_nonempty hl₀ ?_
    rw [hsource, Graph.outputOf_complete_self]
    exact hitems

/-! ## The outputs that are kept are current -/

variable {e : Engine} {x : Execution} {φ₀ φ : Phase}

/-- The history and the outputs after a step that executes nothing more than what a node holds. -/
theorem Holds.lastOutput? {en : Entry} {n : Node} {p : Pass} {h : List Entry}
    (holds : Holds x φ en n) (hp : φ.pass? = some p) (aligned : Aligned x.graph h φ) (d : RunData)
    (name : String) :
    x.graph.lastOutput? (h ++ φ.next?.toList) d name = x.graph.lastOutput? h d name := by
  obtain ⟨node, enabled, _⟩ := holds.last hp aligned
  cases holds with
  | taking next =>
    rw [next]
    exact Graph.lastOutput?_take node enabled h d name
  | lingering => exact congrArg (x.graph.lastOutput? · d name) (List.append_nil h)

/-- A run that goes on has not failed, and as long as it has not, what it keeps is current. -/
structure Settles (g : Graph) (h : List Entry) (φ : Phase) (p : Pass) : Prop where
  aligned : Aligned g h φ
  clean : φ.Going → p.state.error = none
  current : p.state.error = none → Current g h p.state

/-- A step keeps the outputs current. -/
theorem Effect.current {φ' : Phase} {h : List Entry} {p p' : Pass} (effect : Effect e x φ φ' p p')
    (hp : φ.pass? = some p) (settles : Settles x.graph h φ p) (unfailed : p'.state.error = none) :
    Current x.graph (h ++ φ.next?.toList) p'.state := by
  -- A node that completes gets its task and its output together, and a disabled one passes on what
  -- it was given.
  cases effect with
  | idle next state =>
    rw [next, Option.toList_none, List.append_nil, state]
    exact settles.current (state ▸ unfailed)
  | refused _ _ state => exact absurd (state ▸ unfailed) (Option.some_ne_none _)
  | lingers next _ node enabled state =>
    have current := settles.current (settles.clean (Phase.going_of_next? next))
    have holds : Holds x φ _ _ := .taking next node enabled
    rw [state]
    exact ⟨fun name =>
      (current.outputs name).trans (holds.lastOutput? hp settles.aligned _ name).symm,
      current.succeeded⟩
  | @bypassed en n stack next _ node disabled state =>
    have current := settles.current (settles.clean (Phase.going_of_next? next))
    rw [state, next]
    refine ⟨fun name => ?_, current.succeeded⟩
    rw [Option.toList_some, Graph.lastOutput?_bypass node disabled, Graph.complete_outputs,
      Graph.name_of_node? node, Named.get?_insert, ← current.outputs name]
    rfl
  | failed _ _ _ _ _ state => exact absurd (state ▸ unfailed) (Option.some_ne_none _)
  | @completed en n q t s stack till holds _ _ _ status state =>
    have current := settles.current (settles.clean holds.going)
    obtain ⟨node, enabled, _⟩ := holds.last hp settles.aligned
    have known : x.graph.node? n.name = some n := Graph.name_of_node? node ▸ node
    rw [state]
    refine ⟨fun name => ?_, fun name u hu => ?_⟩
    · rw [holds.lastOutput? hp settles.aligned]
      -- What the completion has put in is the output of the task that it has recorded last.
      show (x.graph.complete _ n.name t.output).outputs.get? name
        = x.graph.lastOutput? h (p.state.tasks.record n.name t) name
      rw [Graph.lastOutput?_record known enabled, Graph.complete_outputs, Named.get?_insert,
        ← current.outputs name]
      rfl
    -- A task of the run is an old one or the one that has just completed.
    · rcases RunData.mem_tasks_record.1 hu with old | ⟨_, rfl⟩
      · exact current.succeeded name u old
      · exact status

/-- A run that goes on after a step has not failed in it. -/
theorem Effect.clean {φ' : Phase} {p p' : Pass} (effect : Effect e x φ φ' p p')
    (clean : φ.Going → p.state.error = none) (going : φ'.Going) : p'.state.error = none := by
  cases effect with
  | idle next state phase =>
    rcases phase with rfl | rfl
    · exact state ▸ clean going
    · exact going.elim
  | refused _ _ _ phase => exact (phase ▸ going).elim
  | lingers next _ _ _ state => exact state ▸ clean (Phase.going_of_next? next)
  | bypassed next _ _ _ state => exact state ▸ clean (Phase.going_of_next? next)
  | failed _ _ _ _ _ _ phase => exact (phase ▸ going).elim
  | completed holds _ _ _ _ state => exact state ▸ clean holds.going

/-- **The outputs that a run keeps are current.** -/
theorem Leads.settles (hk : e.Watched) {p₀ : Pass} (hp₀ : φ₀ = .ready p₀) (fresh : Fresh p₀)
    {h : List Entry} (run : Leads e x φ₀ h φ) {p : Pass} (hp : φ.pass? = some p) :
    Settles x.graph h φ p := by
  refine Leads.induct hk (Settles x.graph) ?_ ?_ ?_ ?_ run hp
  · rintro q hq
    subst hp₀
    obtain rfl := Option.some.inj hq
    refine ⟨fresh.index, fun _ => fresh.error, fun _ => ⟨fun name => ?_, fun name t ht => ?_⟩⟩
    · rw [fresh.outputs, fresh.tasks, Graph.lastOutput?_nil, Named.get?_nil]
    · rw [fresh.tasks] at ht
      exact absurd ht List.not_mem_nil
  · intro h φ q q' run hq hq' settles effect
    exact ⟨(run.step.aligned hk hp₀ fresh.index fresh.tasks hq').1,
      effect.clean settles.clean, effect.current hq settles⟩
  · exact fun s => ⟨s.aligned, s.clean, s.current⟩
  · exact fun s => ⟨s.aligned, s.clean, s.current⟩

/-! ## Arrivals -/

theorem Delivered.sources_ne {g : Graph} {h : List Entry} {d : RunData} {en : Entry}
    (delivered : Delivered g h d en) : en.sources ≠ [] := by
  obtain ⟨⟨l, hl, _⟩, _⟩ := delivered.width
  rw [delivered.sources]
  exact List.ne_nil_of_mem (List.mem_map.2 ⟨l, hl, rfl⟩)

/-- What a step leaves of the stack and what it puts on top of it. -/
theorem Effect.pushes {φ' : Phase} {p p' : Pass} (effect : Effect e x φ φ' p p') :
    ∃ new rest, (φ.next?.toList ++ rest).Sublist p.state.agenda.stack ∧
      p'.state.agenda.stack = new ++ rest ∧
      ∀ en ∈ new, φ.Going ∧ p'.state.error = p.state.error ∧ ∃ a m output,
        p'.state.agenda = x.graph.complete a m output ∧ en ∈ x.graph.pushes a m output := by
  -- Only bypassing and completing push anything; for the others there is one argument.
  have nothing : ∀ stack : List Entry, (φ.next?.toList ++ stack).Sublist p.state.agenda.stack →
      p'.state.agenda.stack = stack → ∃ new rest, (φ.next?.toList ++ rest).Sublist
        p.state.agenda.stack ∧ p'.state.agenda.stack = new ++ rest ∧
        ∀ en ∈ new, φ.Going ∧ p'.state.error = p.state.error ∧ ∃ a m output,
          p'.state.agenda = x.graph.complete a m output ∧ en ∈ x.graph.pushes a m output :=
    fun stack below same => ⟨[], stack, below, same, fun _ hen => absurd hen List.not_mem_nil⟩
  cases effect with
  | idle next state =>
    refine nothing p.state.agenda.stack ?_ (by rw [state])
    rw [next]
    exact List.Sublist.refl _
  | @refused _ stack _ next below state => exact nothing stack below (by rw [state]; rfl)
  | @lingers _ _ stack _ next below _ _ state => exact nothing stack below (by rw [state]; rfl)
  | @failed _ _ _ _ _ stack _ _ _ below _ _ state => exact nothing stack below (by rw [state]; rfl)
  | @bypassed en n stack next below _ _ state =>
    rw [state]
    exact ⟨_, stack, below, rfl, fun en hen =>
      ⟨Phase.going_of_next? next, rfl, _, _, _, rfl, hen⟩⟩
  | @completed _ _ _ _ _ stack _ holds _ below _ _ state =>
    rw [state]
    exact ⟨_, stack, below, rfl, fun en hen => ⟨holds.going, rfl, _, _, _, rfl, hen⟩⟩

/-- **What a step of a run pushes is delivered**, and all other entries were on the stack before. -/
theorem Leads.pushes (hk : e.Watched) {p₀ : Pass} (hp₀ : φ₀ = .ready p₀) (fresh : Fresh p₀)
    {h : List Entry} (run : Leads e x φ₀ h φ) {p p' : Pass} (hp : φ.pass? = some p)
    (hp' : (e.step x φ).pass? = some p') :
    ∃ new rest, (φ.next?.toList ++ rest).Sublist p.state.agenda.stack ∧
      p'.state.agenda.stack = new ++ rest ∧
      ∀ en ∈ new, Delivered x.graph (h ++ φ.next?.toList) p'.state.tasks en := by
  obtain ⟨new, rest, kept, stack, origin⟩ := ((turn_step hk x φ).effect hp hp').pushes
  refine ⟨new, rest, kept, stack, fun en hen => ?_⟩
  obtain ⟨going, unfailed, a, m, output, agenda, pushed⟩ := origin en hen
  have clean := (run.settles hk hp₀ fresh hp).clean going
  exact ((run.step.settles hk hp₀ fresh hp').current (unfailed.trans clean)).delivered agenda pushed

/-- The moment at which an entry was put on the stack, on the way of a run from `φ₀` to `φ`: the
entries `past` had been taken by then, and the step to this moment left `rest` of the stack and put
`new` on top. -/
inductive Arrived (e : Engine) (x : Execution) (φ₀ : Phase) (h : List Entry) (φ : Phase)
    (en : Entry) (past : List Entry) : Prop
  | pushed {a b new rest : List Entry} {ψ : Phase} {q q' : Pass} (before : Leads e x φ₀ a ψ)
      (pass : ψ.pass? = some q) (pass' : (e.step x ψ).pass? = some q')
      (moment : past = a ++ ψ.next?.toList)
      (kept : (ψ.next?.toList ++ rest).Sublist q.state.agenda.stack)
      (stack : q'.state.agenda.stack = new ++ rest) (mem : en ∈ new)
      (delivered : Delivered x.graph past q'.state.tasks en)
      (after : Leads e x (e.step x ψ) b φ) (history : h = past ++ b)

/-- The moment stays the same when the run goes on. -/
theorem Arrived.later {h b past : List Entry} {φ' : Phase} {en : Entry}
    (arrived : Arrived e x φ₀ h φ en past) (run : Leads e x φ b φ') :
    Arrived e x φ₀ (h ++ b) φ' en past := by
  cases arrived with
  | pushed before pass pass' moment kept stack mem delivered after history =>
    exact .pushed before pass pass' moment kept stack mem delivered (after.trans run)
      (by rw [history, List.append_assoc])

/-- Every entry is one that the run began with, which has no sources, or has arrived; those on the
stack some time ago, and those that were taken before they were. -/
structure Accounted (e : Engine) (x : Execution) (φ₀ : Phase) (roots : List Entry) (h : List Entry)
    (φ : Phase) (p : Pass) : Prop where
  started : ((h ++ p.state.agenda.stack).filter (·.sources.isEmpty)).Sublist roots
  stacked : ∀ en ∈ p.state.agenda.stack, en.sources ≠ [] → ∃ past, Arrived e x φ₀ h φ en past
  taken : ∀ a en, a ++ [en] <+: h → en.sources ≠ [] →
    ∃ past, past <+: a ∧ Arrived e x φ₀ h φ en past

theorem Arrived.past_prefix {h past : List Entry} {en : Entry}
    (arrived : Arrived e x φ₀ h φ en past) : past <+: h := by
  cases arrived with
  | pushed _ _ _ _ _ _ _ _ _ history => exact history ▸ List.prefix_append _ _

/-- The entry that a step takes was on the stack. -/
theorem Accounted.step {roots h new rest : List Entry} {p p' : Pass} (run : Leads e x φ₀ h φ)
    (hp : φ.pass? = some p) (hp' : (e.step x φ).pass? = some p')
    (accounted : Accounted e x φ₀ roots h φ p)
    (kept : (φ.next?.toList ++ rest).Sublist p.state.agenda.stack)
    (stack : p'.state.agenda.stack = new ++ rest)
    (delivered : ∀ en ∈ new, Delivered x.graph (h ++ φ.next?.toList) p'.state.tasks en) :
    Accounted e x φ₀ roots (h ++ φ.next?.toList) (e.step x φ) p' := by
  -- What was on the stack before the step has arrived before it, and stays so.
  have older : ∀ en ∈ φ.next?.toList ++ rest, en.sources ≠ [] →
      ∃ past, past <+: h ∧ Arrived e x φ₀ (h ++ φ.next?.toList) (e.step x φ) en past := by
    intro en hen hs
    obtain ⟨past, arrived⟩ := accounted.stacked en (kept.subset hen) hs
    exact ⟨past, arrived.past_prefix, arrived.later Leads.refl.step⟩
  refine ⟨?_, fun en hen hs => ?_, fun a en ha hs => ?_⟩
  -- Nothing that is pushed comes from nowhere, so no step adds to the entries that do.
  · have none : new.filter (·.sources.isEmpty) = [] := by
      refine List.filter_eq_nil_iff.2 fun en hen => ?_
      rw [List.isEmpty_iff]
      exact (delivered en hen).sources_ne
    refine List.Sublist.trans ?_ accounted.started
    simp only [stack, List.filter_append, none, List.nil_append, List.append_assoc]
    refine List.Sublist.append_left ?_ _
    rw [← List.filter_append]
    exact kept.filter _
  · rcases List.mem_append.1 (stack ▸ hen) with hnew | hrest
    · exact ⟨_, .pushed run hp hp' rfl kept stack hnew (delivered en hnew) .refl
        (List.append_nil _).symm⟩
    · obtain ⟨past, _, arrived⟩ := older en (List.mem_append.2 (.inr hrest)) hs
      exact ⟨past, arrived⟩
  · have earlier : a ++ [en] <+: h → ∃ past, past <+: a ∧
        Arrived e x φ₀ (h ++ φ.next?.toList) (e.step x φ) en past := by
      intro ha
      obtain ⟨past, hpast, arrived⟩ := accounted.taken a en ha hs
      exact ⟨past, hpast, arrived.later Leads.refl.step⟩
    cases next : φ.next? with
    | none =>
      rw [next, Option.toList_none, List.append_nil] at ha
      rw [← next]
      exact earlier ha
    | some top =>
      rw [next, Option.toList_some, List.prefix_concat_iff] at ha
      rw [← next]
      -- The last entry of the history is the one that this step takes.
      rcases ha with last | ha
      · obtain ⟨rfl, hlast⟩ := List.append_inj' last rfl
        obtain rfl : en = top := List.singleton_inj.1 hlast
        exact older en (List.mem_append.2 (.inl (by rw [next]; exact List.mem_singleton_self en)))
          hs
      · exact earlier ha

/-- A cancellation changes no account. -/
theorem Accounted.cancel {roots h : List Entry} {p p' : Pass}
    (accounted : Accounted e x φ₀ roots h φ p) (same : p'.state = p.state) :
    Accounted e x φ₀ roots h φ.cancel p' := by
  have later : ∀ {en past}, Arrived e x φ₀ h φ en past → Arrived e x φ₀ h φ.cancel en past := by
    intro en past arrived
    have := arrived.later (Leads.refl.cancel)
    rwa [List.append_nil] at this
  refine ⟨same ▸ accounted.started, fun en hen hs => ?_, fun a en ha hs => ?_⟩
  · obtain ⟨past, arrived⟩ := accounted.stacked en (same ▸ hen) hs
    exact ⟨past, later arrived⟩
  · obtain ⟨past, hpast, arrived⟩ := accounted.taken a en ha hs
    exact ⟨past, hpast, later arrived⟩

/-- **Every entry of a run is accounted for.** -/
theorem Leads.accounted (hk : e.Watched) {p₀ : Pass} (hp₀ : φ₀ = .ready p₀) (fresh : Fresh p₀)
    (roots : ∀ en ∈ p₀.state.agenda.stack, en.sources = []) {h : List Entry}
    (run : Leads e x φ₀ h φ) {p : Pass} (hp : φ.pass? = some p) :
    Accounted e x φ₀ p₀.state.agenda.stack h φ p := by
  refine Leads.induct hk (Accounted e x φ₀ p₀.state.agenda.stack) ?_ ?_ ?_ ?_ run hp
  · rintro q hq
    rw [hp₀] at hq
    obtain rfl := Option.some.inj hq
    refine ⟨List.filter_sublist, fun en hen hs => absurd (roots en hen) hs, fun a en ha => ?_⟩
    exact absurd (List.prefix_nil.1 ha) (by simp)
  · intro h φ q q' run hq hq' accounted effect
    obtain ⟨new, rest, kept, stack, delivered⟩ := run.pushes hk hp₀ fresh hq hq'
    exact accounted.step run hq hq' kept stack delivered
  · exact fun accounted => accounted.cancel rfl
  · exact fun accounted => accounted.cancel rfl

/-! ## Provenance -/

/-- A node that feeds a task completed before it: a task of it has a smaller number, or it is
disabled and an entry for it was taken before. -/
def Precedes (g : Graph) (d : RunData) (a : List Entry) (t : Task) (name : String) : Prop :=
  ∃ n, g.node? name = some n ∧
    if n.disabled then ∃ en ∈ a, en.node = name
    else ∃ u ∈ d.tasks name, u.status = .success ∧ u.index < t.index

theorem executed_lt {g : Graph} {past a b : List Entry} {en : Entry} (runs : Runs g en)
    (hb : b ++ [en] <+: past) (hpast : past <+: a) : executed g b < executed g a := by
  have hle : executed g (b ++ [en]) ≤ executed g a := (hb.trans hpast).sublist.countP_le
  rw [executed_append, executed_singleton runs] at hle
  exact hle

/-- The sources of a delivered entry completed before every task that stems from it. -/
theorem Arrived.precedes (hk : e.Watched) {p₀ : Pass} (hp₀ : φ₀ = .ready p₀) (fresh : Fresh p₀)
    {h a past : List Entry} {en : Entry} {p : Pass} {t : Task} (hp : φ.pass? = some p)
    (arrived : Arrived e x φ₀ h φ en past) (hpast : past <+: a)
    (index : t.index = executed x.graph a) :
    en.sources = (x.graph.inbound en.node).map Inbound.toSource ∧
      ∀ l ∈ x.graph.inbound en.node, Precedes x.graph p.state.tasks a t l.source := by
  cases arrived with
  | pushed before pass pass' moment kept stack mem delivered after history =>
    refine ⟨delivered.sources, fun l hl => ?_⟩
    obtain ⟨n, node, completed⟩ := delivered.completed l hl
    refine ⟨n, node, ?_⟩
    split at completed
    · rename_i disabled
      rw [if_pos disabled]
      obtain ⟨en', hen', source⟩ := completed
      exact ⟨en', hpast.subset hen', source⟩
    · rename_i enabled
      rw [if_neg enabled]
      obtain ⟨u, hu, status⟩ := completed
      refine ⟨u, after.mem_tasks hk pass' hp hu, status, ?_⟩
      -- The task of the source was recorded before the entry was pushed, hence earlier than `t`.
      obtain ⟨b, en', hb, source, _, earlier⟩ :=
        (before.step.aligned hk hp₀ fresh.index fresh.tasks pass').2 l.source u hu
      have runs : Runs x.graph en' := ⟨n, source ▸ node, by simpa using enabled⟩
      rw [earlier, index]
      exact executed_lt runs (moment ▸ hb) hpast

/-- What a run has done and is going to do goes back to the entries `roots` and to deliveries. -/
structure Provenance (e : Engine) (x : Execution) (φ₀ : Phase) (roots : List Entry) (h : List Entry)
    (φ : Phase) (p : Pass) : Prop extends Accounted e x φ₀ roots h φ p where
  /-- The next step pushes what is delivered at that moment, and leaves other entries as they
  are. -/
  pushes : ∀ p', (e.step x φ).pass? = some p' → ∃ new rest,
    (φ.next?.toList ++ rest).Sublist p.state.agenda.stack ∧ p'.state.agenda.stack = new ++ rest ∧
      ∀ en ∈ new, Delivered x.graph (h ++ φ.next?.toList) p'.state.tasks en
  /-- A task names the sources of the entry it stems from, and these completed before it. -/
  tasks : ∀ name, ∀ t ∈ p.state.tasks.tasks name, ∃ a en, a ++ [en] <+: h ∧ en.node = name ∧
    t.sources = en.sources ∧ t.index = executed x.graph a ∧
    (t.sources ≠ [] → t.sources = (x.graph.inbound name).map Inbound.toSource ∧
      ∀ l ∈ x.graph.inbound name, Precedes x.graph p.state.tasks a t l.source)

/-- **Join safety and provenance.** At every moment of a run that was started, whatever its workflow
and its nodes: an entry that the run did not begin with was put on the stack at a moment at which
all sources of its node had completed, with their most recent outputs on its ports; and the task
that stems from such an entry names these sources and has a number above theirs. -/
theorem provenance_of_start (hk : e.Watched) {w : Workflow} {id : String} {mode : RunMode}
    {startNode : Option String} {items : Option Items} {s : RunState}
    (prepared : e.prepare w (.start id mode startNode items) = .ok (x, s)) {canceled : Bool}
    {h : List Entry} (run : Leads e x (e.begin x s canceled) h φ) {p : Pass}
    (hp : φ.pass? = some p) :
    Provenance e x (e.begin x s canceled) s.agenda.stack h φ p := by
  obtain ⟨p₀, hp₀, fresh, hsub, roots, _⟩ := begin_start hk prepared canceled
  have accounted := run.accounted hk hp₀ fresh (fun en hen => roots en (hsub.subset hen)) hp
  refine ⟨⟨accounted.started.trans hsub, accounted.stacked, accounted.taken⟩,
    fun p' hp' => run.pushes hk hp₀ fresh hp hp', fun name t ht => ?_⟩
  obtain ⟨a, en, taken, rfl, sources, index⟩ :=
    (run.aligned hk hp₀ fresh.index fresh.tasks hp).2 name t ht
  refine ⟨a, en, taken, rfl, sources, index, fun hs => ?_⟩
  rw [sources] at hs ⊢
  obtain ⟨past, hpast, arrived⟩ := accounted.taken a en taken hs
  exact arrived.precedes hk hp₀ fresh hp hpast index

end Engine

/-- Of the three entries that are taken on the detour, the last one is a join of two sources. -/
theorem provenance_of_detour : ∃ h p,
    ((Detour.engine NodeType.noOp).steps Detour.execution 3 (Detour.first NodeType.noOp)).pass?
      = some p ∧
    ((p.state.tasks.tasks "J").map fun t => (t.index, t.sources.length)) = [(1, 2)] ∧
    Engine.Provenance (Detour.engine NodeType.noOp) Detour.execution (Detour.first NodeType.noOp)
      Detour.state.agenda.stack h
      ((Detour.engine NodeType.noOp).steps Detour.execution 3 (Detour.first NodeType.noOp)) p := by
  have run :=
    Engine.leads_steps (Detour.engine NodeType.noOp) Detour.execution 3 (Detour.first NodeType.noOp)
  have joined : ((Detour.engine NodeType.noOp).steps Detour.execution 3
      (Detour.first NodeType.noOp)).pass?.map (fun p =>
        (p.state.tasks.tasks "J").map fun t => (t.index, t.sources.length)) = some [(1, 2)] := by
    decide
  obtain ⟨p, hp, tasks⟩ := Option.map_eq_some_iff.1 joined
  exact ⟨_, p, hp, tasks,
    Engine.provenance_of_start (Detour.watched _) (Detour.prepared _) run hp⟩

end Conveyor
