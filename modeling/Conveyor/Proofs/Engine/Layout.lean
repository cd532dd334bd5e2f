/-
What the places of nodes on the canvas can change.

Places decide which of several branches is followed first, and one would have them decide no more
than that. The entries of a run are those that are due, and what is due is told by the dataflow,
which knows no places. But being due also takes that the source that was taken last has items for
the node, and which source is the last one is a matter of order. This is the only way in which
places get into what a run does: two layouts come to the same if and only if they agree on which
joins are fed last. They do whenever the sources of each join are of one mind, so that all of them
have items for it or none has.

Where a join has a source with items for it and a silent one, the layout decides. The join is taken
if the silent source is taken first, and is never looked at again if it is taken last. The fork at
the end of this file is such a workflow.
-/
import Conveyor.Proofs.Engine.Dataflow
import Mathlib.Data.List.Induction

set_option autoImplicit false

namespace Conveyor

/-! ## Two histories of one dataflow -/

namespace Dataflow

variable {D : Dataflow} {begun begun₁ begun₂ h₁ h₂ : List Entry} {name : String}

/-- The sources of every node whose sources were all taken are of one mind. -/
def Unanimous (D : Dataflow) (h : List Entry) : Prop :=
  ∀ name, D.Complete h name →
    (∀ en ∈ h, D.leads name en = true → D.feeds en name) ∨ (∀ en ∈ h, ¬ D.feeds en name)

/-- A history whose nodes are fed in another one as well has taken nothing else. The induction is on
how far it has come: what was taken until then was taken in the other one too, and so was what it
made due. -/
theorem Account.subset (account₁ : D.Account begun₁ h₁ []) (account₂ : D.Account begun₂ h₂ [])
    (begins : begun₁ ⊆ begun₂)
    (carry : ∀ name, D.Complete h₁ name → (∀ en ∈ h₁, D.leads name en = true → en ∈ h₂) →
      D.Fed h₁ name → D.Fed h₂ name) : h₁ ⊆ h₂ := by
  have early : ∀ a, a <+: h₁ → a ⊆ h₂ := by
    intro a
    induction a using List.reverseRecOn with
    | nil => exact fun _ => List.nil_subset h₂
    | append_singleton a en ih =>
      intro taken
      have sub : a ⊆ h₂ := ih ((List.prefix_append a [en]).trans taken)
      refine List.append_subset.2 ⟨sub,
        List.cons_subset.2 ⟨account₂.mem_iff.2 ?_, List.nil_subset h₂⟩⟩
      rcases account₁.taken a en taken with start | ⟨complete, fed, gathered⟩
      -- An entry that starts does so in both; another one was made due by a node that is complete.
      · exact .inl (begins start)
      · obtain ⟨k, rfl⟩ := (List.prefix_append a [en]).trans taken
        refine .inr ⟨complete.subset sub, carry en.node ?_ ?_ ?_, ?_⟩
        · exact complete.subset (List.subset_append_left a k)
        -- Whatever leads to the node was taken before it, since nothing that leads there comes
        -- later.
        · intro en' hen' leads
          rcases List.mem_append.1 hen' with old | later
          · exact sub old
          · rw [complete.later account₁.nodup later] at leads
            exact absurd leads Bool.false_ne_true
        · exact (complete.fed_append account₁.nodup).2 fed
        · rw [complete.gathered_subset sub account₂.nodup]
          exact gathered
  exact early h₁ (List.prefix_refl h₁)

theorem Account.perm (account₁ : D.Account begun₁ h₁ []) (account₂ : D.Account begun₂ h₂ [])
    (sub : h₁ ⊆ h₂) (sub' : h₂ ⊆ h₁) : h₁.Perm h₂ :=
  (List.perm_ext_iff_of_nodup account₁.nodup.of_map account₂.nodup.of_map).2 fun _ =>
    ⟨fun hen => sub hen, fun hen => sub' hen⟩

/-- What is fed in a history is fed in another one that has taken the same. -/
theorem Account.fed_of_subset (account₁ : D.Account begun₁ h₁ [])
    (account₂ : D.Account begun₂ h₂ []) (begins : begun₂ ⊆ begun₁) (sub : h₁ ⊆ h₂)
    (complete : D.Complete h₁ name) (fed : D.Fed h₁ name) : D.Fed h₂ name := by
  have taken : D.gathered h₁ name ∈ h₁ := account₁.mem_iff.2 (.inr ⟨complete, fed, rfl⟩)
  rcases account₂.due (sub taken) with start | ⟨_, fed', _⟩
  · exact absurd fed (account₁.not_fed (begins start))
  · exact fed'

/-- The sources of a node whose sources were all taken are taken wherever their entries are. -/
theorem Complete.carry (complete : D.Complete h₁ name)
    (sub : ∀ en ∈ h₁, D.leads name en = true → en ∈ h₂) : D.Complete h₂ name := by
  intro l hl
  obtain ⟨en, hen, node⟩ := complete l hl
  exact ⟨en, sub en hen (leads_iff.2 ⟨l, hl, node.symm⟩), node⟩

/-- **Two histories take the same entries if and only if they agree on what is fed last.** -/
theorem Account.perm_iff (account₁ : D.Account begun₁ h₁ []) (account₂ : D.Account begun₂ h₂ [])
    (begins : begun₁ ⊆ begun₂) (begins' : begun₂ ⊆ begun₁) : h₁.Perm h₂ ↔
      ∀ name, D.Complete h₁ name → D.Complete h₂ name → (D.Fed h₁ name ↔ D.Fed h₂ name) := by
  constructor
  · intro perm name complete₁ complete₂
    exact ⟨account₁.fed_of_subset account₂ begins' perm.subset complete₁,
      account₂.fed_of_subset account₁ begins perm.symm.subset complete₂⟩
  · intro agree
    refine account₁.perm account₂ ?_ ?_
    · exact account₁.subset account₂ begins fun name complete sub fed =>
        (agree name complete (complete.carry sub)).1 fed
    · exact account₂.subset account₁ begins' fun name complete sub fed =>
        (agree name (complete.carry sub) complete).2 fed

/-- A node is fed last if it has a source and all its sources have items for it. -/
theorem fed_of_all {h : List Entry} {en : Entry} (hen : en ∈ h) (leads : D.leads name en = true)
    (all : ∀ en ∈ h, D.leads name en = true → D.feeds en name) : D.Fed h name := by
  cases last : D.lastSource? h name with
  | none =>
    rw [lastSource?, List.getLast?_eq_none_iff, List.filter_eq_nil_iff] at last
    exact absurd leads (last en hen)
  | some en' =>
    obtain ⟨hen', leads'⟩ := List.mem_filter.1 (List.mem_of_getLast? last)
    exact ⟨en', last, all en' hen' leads'⟩

/-- **Sources of one mind leave nothing to the order.** -/
theorem Account.perm_of_unanimous (account₁ : D.Account begun₁ h₁ [])
    (account₂ : D.Account begun₂ h₂ []) (begins : begun₁ ⊆ begun₂) (begins' : begun₂ ⊆ begun₁)
    (unanimous : D.Unanimous h₁) : h₁.Perm h₂ := by
  have all : ∀ {name}, D.Complete h₁ name → (∃ en ∈ h₁, D.feeds en name) →
      ∀ en ∈ h₁, D.leads name en = true → D.feeds en name := fun complete ⟨en, hen, feeds⟩ =>
    (unanimous _ complete).resolve_right fun none => none en hen feeds
  refine account₁.perm account₂ ?_ ?_
  · refine account₁.subset account₂ begins fun name complete sub fed => ?_
    obtain ⟨en, hen, feeds⟩ := fed.mem
    have leads := leads_of_feeds feeds
    refine fed_of_all (sub en hen leads) leads fun en₂ hen₂ leads₂ => ?_
    -- The other history has no entry for a source of the node but that of this one.
    obtain ⟨l, hl, source⟩ := leads_iff.1 leads₂
    obtain ⟨en₁, hen₁, node⟩ := complete l hl
    have leads₁ : D.leads name en₁ = true := leads_iff.2 ⟨l, hl, node.symm⟩
    rw [← Entry.eq_of_node_eq account₂.nodup (sub en₁ hen₁ leads₁) hen₂ (node.trans source)]
    exact all complete ⟨en, hen, feeds⟩ en₁ hen₁ leads₁
  · refine account₂.subset account₁ begins' fun name complete sub fed => ?_
    obtain ⟨en, hen, feeds⟩ := fed.mem
    have leads := leads_of_feeds feeds
    have hen₁ := sub en hen leads
    exact fed_of_all hen₁ leads (all (complete.carry sub) ⟨en, hen₁, feeds⟩)

end Dataflow

/-! ## Two layouts of one workflow -/

namespace Workflow

variable {w₁ w₂ : Workflow}

/-- Workflows that differ in the places of their nodes have the same connections. -/
theorem connections_layout (same : w₁.unplaced = w₂.unplaced) : w₁.connections = w₂.connections :=
  (congrArg Workflow.connections same :)

/-- A node of one layout is a node of the other one, in another place. -/
theorem node_layout (same : w₁.unplaced = w₂.unplaced) {n : Node} (hn : n ∈ w₁.nodes) :
    ∃ n' ∈ w₂.nodes, n'.name = n.name ∧ n'.type = n.type ∧ n'.disabled = n.disabled := by
  have there : n.unplaced ∈ w₂.unplaced.nodes := by
    rw [← same]
    exact List.mem_map_of_mem hn
  obtain ⟨n', hn', plain⟩ := List.mem_map.1 there
  exact ⟨n', hn', (congrArg Node.name plain :), (congrArg Node.type plain :),
    (congrArg Node.disabled plain :)⟩

theorem link_layout (same : w₁.unplaced = w₂.unplaced) : w₁.Link = w₂.Link := by
  unfold Link
  rw [connections_layout same]

theorem acyclic_layout (same : w₁.unplaced = w₂.unplaced) (acyclic : w₁.Acyclic) : w₂.Acyclic := by
  rw [Acyclic, ← link_layout same]
  exact acyclic

end Workflow

namespace Graph

variable {g₁ g₂ : Graph}

theorem inbound_layout (same : g₁.workflow.unplaced = g₂.workflow.unplaced) :
    g₁.inbound = g₂.inbound :=
  inbound_congr (.of_eq (congrArg Connections.edges (Workflow.connections_layout same)))

theorem feeds_layout (same : g₁.workflow.unplaced = g₂.workflow.unplaced) :
    g₁.Feeds = g₂.Feeds := by
  funext source output node
  simp only [Feeds, deliveriesOf, Workflow.connections_layout same]

/-- What is told of a node without its place is the same in both layouts. -/
theorem node?_layout (same : g₁.workflow.unplaced = g₂.workflow.unplaced) {α : Type}
    (f : Node → α) (plain : ∀ n : Node, f n.unplaced = f n) (name : String) :
    (g₁.node? name).map f = (g₂.node? name).map f := by
  have told : ∀ g : Graph, (g.node? name).map f
      = (g.workflow.unplaced.nodes.find? (·.name == name)).map f := by
    intro g
    rw [node?_eq_find?, Workflow.unplaced, List.find?_map, Option.map_map]
    exact congrArg (Option.map · _) (funext fun n => (plain n).symm)
  rw [told, told, same]

end Graph

namespace Engine

variable {e : Engine} {told : Node → List Items → Attempt} {w₁ w₂ : Workflow} {g₁ g₂ : Graph}

/-- **Two layouts have the same dataflow.** -/
theorem dataflow_layout (same : g₁.workflow.unplaced = g₂.workflow.unplaced) :
    e.dataflow told g₁ = e.dataflow told g₂ := by
  have handed : e.handed told g₁ = e.handed told g₂ := by
    funext en
    rw [Engine.handed, Graph.node?_layout same _ fun _ => rfl]
    rfl
  have written : e.written told g₁ = e.written told g₂ := by
    funext en
    rw [Engine.written, Graph.node?_layout same _ fun _ => rfl]
    rfl
  simp only [dataflow, handed, written, Graph.inbound_layout same, Graph.feeds_layout same]

/-- Nodes do what is told of them wherever they stand. -/
theorem local_layout (same : w₁.unplaced = w₂.unplaced) (own : e.Local w₁ told) :
    e.Local w₂ told := by
  rw [Local, ← same]
  exact own

theorem rootTriggers_layout (same : w₁.unplaced = w₂.unplaced) (roots : e.RootTriggers w₁) :
    e.RootTriggers w₂ := by
  intro n hn enabled trigger a link
  obtain ⟨n', hn', name, type, disabled⟩ := Workflow.node_layout same.symm hn
  rw [← Workflow.link_layout same, ← name] at link
  refine roots n' hn' (disabled.trans enabled) ?_ a link
  rw [startsRuns, type]
  exact trigger

/-- A run starts at the same nodes in every layout. -/
theorem startNodes_layout (same : g₁.workflow.unplaced = g₂.workflow.unplaced)
    {startNode : Option String} {names₁ names₂ : List String}
    (starts₁ : e.startNodes g₁ startNode = .ok names₁)
    (starts₂ : e.startNodes g₂ startNode = .ok names₂) : names₁ ⊆ names₂ := by
  cases startNode with
  | some name =>
    rw [(startNodes_some starts₁).2, (startNodes_some starts₂).2]
    exact List.Subset.refl [name]
  | none =>
    rw [startNodes_none starts₁, startNodes_none starts₂]
    intro s hs
    obtain ⟨n, hn, enabled, trigger, rfl⟩ := mem_triggers.1 hs
    obtain ⟨n', hn', name, type, disabled⟩ := Workflow.node_layout same hn
    refine mem_triggers.2 ⟨n', hn', disabled.trans enabled, ?_, name⟩
    rw [startsRuns, type]
    exact trigger

/-! ## What two runs come to -/

/-- Two runs have come to the same: they have taken the same entries, in some order, with the same
items on every input; their tasks differ at most in their numbers; and every node has left the same
output behind. -/
structure SameOutcome (h₁ h₂ : List Entry) (s₁ s₂ : RunState) : Prop where
  entries : h₁.Perm h₂
  tasks : ∀ name, (s₁.tasks.tasks name).map Task.unnumbered
    = (s₂.tasks.tasks name).map Task.unnumbered
  outputs : ∀ name, s₁.agenda.outputs.get? name = s₂.agenda.outputs.get? name

/-- Of a node that is taken at most once, two histories with the same entries tell the same. -/
theorem filter_node_eq_of_perm {h₁ h₂ : List Entry} (perm : h₁.Perm h₂)
    (once : (h₁.map Entry.node).Nodup) (name : String) :
    h₁.filter (·.node == name) = h₂.filter (·.node == name) := by
  by_cases taken : name ∈ h₁.map Entry.node
  · obtain ⟨en, hen, rfl⟩ := List.mem_map.1 taken
    have once' := (perm.map Entry.node).nodup_iff.1 once
    rw [Entry.filter_node_of_mem once hen, Entry.filter_node_of_mem once' (perm.subset hen)]
  · have none : ∀ en ∈ h₁, (en.node == name) = false := fun en hen =>
      beq_false_of_ne fun same => taken (List.mem_map.2 ⟨en, hen, same⟩)
    rw [List.filter_eq_nil_iff.2 fun en hen => by rw [none en hen]; exact Bool.false_ne_true,
      List.filter_eq_nil_iff.2 fun en hen => by
        rw [none en (perm.symm.subset hen)]
        exact Bool.false_ne_true]

/-- Histories with the same entries leave the same behind. -/
theorem Kept.sameOutcome {D : Dataflow} {h₁ h₂ : List Entry} {s₁ s₂ : RunState}
    (kept₁ : Kept D h₁ s₁) (kept₂ : Kept D h₂ s₂) (once : (h₁.map Entry.node).Nodup)
    (perm : h₁.Perm h₂) :
    SameOutcome h₁ h₂ s₁ s₂ := by
  have told := filter_node_eq_of_perm perm once
  refine ⟨perm, fun name => ?_, fun name => ?_⟩
  · rw [kept₁.tasks, kept₂.tasks, told]
  · rw [kept₁.outputs, kept₂.outputs, Dataflow.output?, ← List.head?_filter, told,
      List.head?_filter, Dataflow.output?]

/-- The entries that a run takes that is asked for. -/
def entries (e : Engine) (w : Workflow) (r : Request) : List Entry :=
  match e.prepare w r with
  | .ok (x, s) => e.history x (e.begin x s false)
  | .error _ => []

/-- **What places decide.** Let a workflow without cycles, whose triggers lie behind nothing, be
laid out in two ways, and let its nodes do what their own settings and items tell; let the runs of
both layouts succeed. They come to the same if and only if they agree on what is fed: on every node
whose sources were all taken in both of them, whether the source that was taken last had items for
it. That is so in particular if the sources of each node are of one mind in one of the runs. -/
theorem same_outcome_iff {id : String} {mode : RunMode} {startNode : Option String}
    {items : Option Items} {r₁ r₂ : Run} {log₁ log₂ : HookLog} (silent : e.Silent)
    (own : e.Local w₁ told) (same : w₁.unplaced = w₂.unplaced) (graph : w₁.graph = .ok g₁)
    (acyclic : w₁.Acyclic) (roots : startNode.isSome ∨ e.RootTriggers w₁)
    (run₁ : e.perform w₁ (.start id mode startNode items) false = .ok (.run r₁ log₁))
    (success₁ : r₁.status = .success)
    (run₂ : e.perform w₂ (.start id mode startNode items) false = .ok (.run r₂ log₂))
    (success₂ : r₂.status = .success) :
    let D := e.dataflow told g₁
    let h₁ := e.entries w₁ (.start id mode startNode items)
    let h₂ := e.entries w₂ (.start id mode startNode items)
    (SameOutcome h₁ h₂ r₁.state r₂.state ↔
      ∀ name, D.Complete h₁ name → D.Complete h₂ name → (D.Fed h₁ name ↔ D.Fed h₂ name)) ∧
    (D.Unanimous h₁ → SameOutcome h₁ h₂ r₁.state r₂.state) := by
  obtain ⟨x₁, s₁, prepared₁, ends₁⟩ := prepare_of_perform run₁
  obtain ⟨x₂, s₂, prepared₂, ends₂⟩ := prepare_of_perform run₂
  intro D h₁ h₂
  -- Each run is accounted for by the dataflow of its own layout, and there is only one dataflow.
  obtain ⟨empty₁, account₁, kept₁⟩ :=
    Reckoning.of_success silent own acyclic roots prepared₁ ends₁ success₁
  obtain ⟨empty₂, account₂, kept₂⟩ :=
    Reckoning.of_success silent (local_layout same own) (Workflow.acyclic_layout same acyclic)
      (roots.imp_right (rootTriggers_layout same)) prepared₂ ends₂ success₂
  obtain ⟨graph₁, names₁, starts₁, rfl⟩ := prepare_start prepared₁
  obtain ⟨graph₂, names₂, starts₂, rfl⟩ := prepare_start prepared₂
  obtain rfl := Except.ok.inj (graph.symm.trans graph₁)
  obtain rfl := workflow_of_graph graph₁
  obtain rfl := workflow_of_graph graph₂
  have hD : e.dataflow told x₂.graph = D := dataflow_layout same.symm
  have hh₁ : e.history x₁ (e.begin x₁ (.starting startNode names₁ items) false) = h₁ := by
    simp only [h₁, entries, prepared₁]
  have hh₂ : e.history x₂ (e.begin x₂ (.starting startNode names₂ items) false) = h₂ := by
    simp only [h₂, entries, prepared₂]
  rw [empty₁, hh₁] at account₁
  rw [empty₂, hh₂, hD] at account₂
  rw [hh₁] at kept₁
  rw [hh₂, hD] at kept₂
  have begins := List.map_subset (fun name => Entry.single name 0 (items.getD [{}]) [])
    (startNodes_layout same starts₁ starts₂)
  have begins' := List.map_subset (fun name => Entry.single name 0 (items.getD [{}]) [])
    (startNodes_layout same.symm starts₂ starts₁)
  -- What is recorded is told entry by entry, so only the entries are left to be compared.
  have outcome : SameOutcome h₁ h₂ r₁.state r₂.state ↔ h₁.Perm h₂ :=
    ⟨fun outcome => outcome.entries, kept₁.sameOutcome kept₂ account₁.nodup⟩
  refine ⟨outcome.trans (account₁.perm_iff account₂ begins begins'), fun unanimous => ?_⟩
  exact outcome.2 (account₁.perm_of_unanimous account₂ begins begins' unanimous)

end Engine

/-! ## The fork

Start leads to A and to B, and both of them lead to J. A stands above B or the other way round. -/

namespace Fork

/-- The upper and the lower place. -/
def upper : Position := {}

def lower : Position := { y := 0x4059000000000000 }

/-- The workflow. B gets its items on one of its input ports; on any but the first one it has no use
for them, and hands nothing on. -/
def workflow (port : Nat) (a b : Position) : Workflow where
  id := "fork"
  name := "Fork"
  nodes :=
    [{ id := "1", name := "Start", type := "manualTrigger" },
      { id := "2", name := "A", type := "noOp", position := a },
      { id := "3", name := "B", type := "noOp", position := b },
      { id := "4", name := "J", type := "noOp" }]
  connections :=
    [("Start", [("main", [[⟨"A", 0⟩, ⟨"B", port⟩]])]), ("A", [("main", [[⟨"J", 0⟩]])]),
      ("B", [("main", [[⟨"J", 1⟩]])])]

/-- An engine that knows the node types of the workflow. -/
def engine : Engine where
  registry := [("manualTrigger", NodeType.manualTrigger), ("noOp", NodeType.noOp)]
  box := ⟨0, []⟩
  maxIterations := 4
  now := ⟨0, 0⟩

/-- A run from the trigger on. -/
def request : Request := .start "run" .manual none none

/-- What the nodes do. -/
def told (n : Node) (inputs : List Items) : Attempt :=
  if n.type = "manualTrigger" then
    .returns (.triggered [if (inputs.getD 0 []).isEmpty then [{}] else inputs.getD 0 []])
  else .returns (.output [inputs.getD 0 []])

theorem silent : engine.Silent := fun _ hook => absurd hook List.not_mem_nil

/-- The engine knows two node types. -/
theorem registered {type : String} {t : NodeType}
    (known : Named.get? engine.registry type = some t) :
    t = NodeType.manualTrigger ∨ t = NodeType.noOp := by
  simp only [engine, Named.get?_cons, Named.get?_nil] at known
  split at known
  · exact .inl (Option.some.inj known).symm
  · split at known
    · exact .inr (Option.some.inj known).symm
    · simp only [reduceCtorEq] at known

theorem own (port : Nat) (a b : Position) : engine.Local (workflow port a b) told := by
  intro n hn x s en
  have type : n.type = "manualTrigger" ∨ n.type = "noOp" := by
    simp only [Workflow.unplaced, workflow, List.map_cons, List.map_nil, List.mem_cons,
      List.not_mem_nil, or_false] at hn
    rcases hn with h | h | h | h
    · exact .inl (congrArg Node.type h :)
    · exact .inr (congrArg Node.type h :)
    · exact .inr (congrArg Node.type h :)
    · exact .inr (congrArg Node.type h :)
  rcases type with type | type
  · simp only [Engine.attempt, told, Node.unplaced, type, if_true]
    rfl
  · simp only [Engine.attempt, told, Node.unplaced, type]
    rfl

/-- Where the connections lead. -/
theorem ends {port : Nat} {a b : Position} {edge : Edge}
    (h : edge ∈ (workflow port a b).connections.edges) :
    (edge.source = "Start" ∧ (edge.target.node = "A" ∨ edge.target.node = "B")) ∨
      ((edge.source = "A" ∨ edge.source = "B") ∧ edge.target.node = "J") := by
  have edges : edge ∈ [⟨"Start", 0, ⟨"A", 0⟩⟩, ⟨"Start", 0, ⟨"B", port⟩⟩, ⟨"A", 0, ⟨"J", 0⟩⟩,
      (⟨"B", 0, ⟨"J", 1⟩⟩ : Edge)] := h
  simp only [List.mem_cons, List.not_mem_nil, or_false] at edges
  rcases edges with rfl | rfl | rfl | rfl
  · exact .inl ⟨rfl, .inl rfl⟩
  · exact .inl ⟨rfl, .inr rfl⟩
  · exact .inr ⟨.inl rfl, rfl⟩
  · exact .inr ⟨.inr rfl, rfl⟩

theorem acyclic (port : Nat) (a b : Position) : (workflow port a b).Acyclic := by
  refine Workflow.acyclic_of_rank
    (fun name => if name = "Start" then 0 else if name = "J" then 2 else 1) fun edge hedge => ?_
  rcases ends hedge with ⟨source, target | target⟩ | ⟨source | source, target⟩ <;>
    rw [source, target] <;> decide

theorem roots (port : Nat) (a b : Position) : engine.RootTriggers (workflow port a b) := by
  rintro n hn - starts source ⟨edge, hedge, -, target⟩
  have type : n.type ≠ "noOp" := by
    intro type
    rw [Engine.startsRuns, type] at starts
    exact absurd starts (by decide)
  have name : n.name = "Start" := by
    simp only [workflow, List.mem_cons, List.not_mem_nil, or_false] at hn
    rcases hn with rfl | rfl | rfl | rfl
    · rfl
    · exact absurd rfl type
    · exact absurd rfl type
    · exact absurd rfl type
  rw [name] at target
  rcases ends hedge with ⟨_, h | h⟩ | ⟨_, h⟩ <;> rw [h] at target
    <;> exact absurd target (by decide)

/-- **The layout matters.** Where B has nothing for J, J is taken if B stands above A, and is not if
A stands above B. All else is as it should be: nodes that look at their items only, no cycle, no
trigger behind another node, and two runs that succeed. -/
theorem layout_matters : engine.Silent ∧ (workflow 1 upper lower).Acyclic ∧
    engine.RootTriggers (workflow 1 upper lower) ∧ engine.Local (workflow 1 upper lower) told ∧
    (workflow 1 upper lower).unplaced = (workflow 1 lower upper).unplaced ∧
    ∃ r₁ log₁ r₂ log₂,
      engine.perform (workflow 1 upper lower) request false = .ok (.run r₁ log₁) ∧
      engine.perform (workflow 1 lower upper) request false = .ok (.run r₂ log₂) ∧
      r₁.status = .success ∧ r₂.status = .success ∧
      r₁.state.tasks.names = ["Start", "A", "B"] ∧
        r₂.state.tasks.names = ["Start", "B", "A", "J"] := by
  refine ⟨silent, acyclic _ _ _, roots _ _ _, own _ _ _, rfl, _, _, _, _, rfl, rfl, ?_⟩
  decide

/-- The graph of the workflow in which B gets its items where it looks for them. -/
def graph : Graph := .of (workflow 0 upper lower) (by decide) (by decide)

/-- There, every node has items for all that it leads to. -/
theorem unanimous : (engine.dataflow told graph).Unanimous
    (engine.entries (workflow 0 upper lower) request) := by
  have fed : ∀ name ∈ ["A", "B", "J"], ∀ en ∈ engine.entries (workflow 0 upper lower) request,
      (engine.dataflow told graph).leads name en = true →
      graph.Feeds en.node (engine.handed told graph en) name := by
    unfold Graph.Feeds
    decide
  intro name _
  by_cases target : name ∈ ["A", "B", "J"]
  · exact .inl (fed name target)
  · refine .inr fun en _ feeds => target ?_
    obtain ⟨l, hl, _⟩ := (engine.dataflow told graph).source feeds
    rcases ends (Graph.edge_of_mem_inbound hl) with ⟨_, rfl | rfl⟩ | ⟨_, rfl⟩ <;> decide

/-- Where B has items for J, the layout changes the order and nothing else. -/
theorem layout_harmless : ∃ r₁ log₁ r₂ log₂,
    engine.perform (workflow 0 upper lower) request false = .ok (.run r₁ log₁) ∧
    engine.perform (workflow 0 lower upper) request false = .ok (.run r₂ log₂) ∧
    (engine.entries (workflow 0 upper lower) request).map Entry.node = ["Start", "A", "B", "J"] ∧
    (engine.entries (workflow 0 lower upper) request).map Entry.node = ["Start", "B", "A", "J"] ∧
    Engine.SameOutcome (engine.entries (workflow 0 upper lower) request)
      (engine.entries (workflow 0 lower upper) request) r₁.state r₂.state := by
  have known : (workflow 0 upper lower).graph = .ok graph := rfl
  have same : (workflow 0 upper lower).unplaced = (workflow 0 lower upper).unplaced := rfl
  refine ⟨_, _, _, _, rfl, rfl, by decide, by decide, ?_⟩
  exact (Engine.same_outcome_iff silent (own _ _ _) same known (acyclic _ _ _)
    (.inr (roots _ _ _)) rfl (by decide) rfl (by decide)).2 unanimous

end Fork

end Conveyor
