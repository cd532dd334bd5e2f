/-
Why a node is taken.

Where nodes do nothing but turn their items into other items, the order of a run is the only thing
that the state has to add to the workflow. `Dataflow` is what can be told of a workflow without that
order: what arrives where, what an entry hands on when its node completes, and what is recorded of
it. With it, the history of a run explains itself. An entry is taken because the run began with it,
or because all sources of its node were taken and the last of them fed it (`Due`), and then it
carries what its sources handed on. The other way round, a node whose sources were all taken and
whose last source fed it is taken as well.

The last source is all that counts. A join is looked at when a source delivers items to it; a source
that completes without any for it leaves its output behind, and no look follows. `Account` says this
of every moment of a run, and `Reckoning.rest` of the moment when the run comes to a good end and
its stack is empty.
-/
import Conveyor.Proofs.Engine.Once
import Conveyor.Proofs.Engine.Pause

set_option autoImplicit false

namespace Conveyor

/-! ## Dataflow -/

/-- What can be told of a run without its order. -/
structure Dataflow where
  /-- The connections that arrive at a node. -/
  inbound : String → List Inbound
  /-- What an entry hands on when its node completes, port by port. -/
  handed : Entry → List Items
  /-- What is recorded of an entry, but for the number of the task. -/
  written : Entry → List Task
  /-- An entry has items for a node. -/
  feeds : Entry → String → Prop
  source : ∀ {en name}, feeds en name → ∃ l ∈ inbound name, l.source = en.node

/-- Gathering depends on what the gathered connections bring. -/
theorem Entry.gather_congr {node : String} {links : List Inbound} {f f' : Inbound → Items}
    (same : ∀ l ∈ links, f l = f' l) : Entry.gather node links f = Entry.gather node links f' := by
  have ports : ∀ port, (links.filter (·.input == port)).flatMap f
      = (links.filter (·.input == port)).flatMap f' := fun port =>
    List.flatMap_congr fun l hl => same l (List.mem_filter.1 hl).1
  simp only [Entry.gather, ports]

/-- Where every node was taken once, an entry is told by its node. -/
theorem Entry.eq_of_node_eq {h : List Entry} (once : (h.map Entry.node).Nodup) {en en' : Entry}
    (hen : en ∈ h) (hen' : en' ∈ h) (same : en.node = en'.node) : en = en' :=
  List.inj_on_of_nodup_map once hen hen' same

/-- Of a node that was taken once there is one entry. -/
theorem Entry.filter_node_of_mem {h : List Entry} (once : (h.map Entry.node).Nodup) {en : Entry}
    (hen : en ∈ h) : h.filter (·.node == en.node) = [en] := by
  obtain ⟨a, b, rfl⟩ := List.append_of_mem hen
  have before : a.filter (·.node == en.node) = [] := by
    refine List.filter_eq_nil_iff.2 fun en' hen' => ?_
    simpa using Entry.node_ne_of_nodup once hen' List.mem_cons_self
  have after : b.filter (·.node == en.node) = [] := by
    refine List.filter_eq_nil_iff.2 fun en' hen' => ?_
    rw [← List.singleton_append, ← List.append_assoc] at once
    simpa using (Entry.node_ne_of_nodup once (List.mem_append_right a (List.mem_singleton_self en))
      hen').symm
  rw [List.filter_append, List.filter_cons, before, after]
  simp only [beq_self_eq_true, if_true, List.nil_append]

namespace Dataflow

variable (D : Dataflow)

/-- All sources of a node were taken. -/
def Complete (h : List Entry) (name : String) : Prop :=
  ∀ l ∈ D.inbound name, ∃ en ∈ h, en.node = l.source

/-- An entry is for a source of a node. -/
def leads (name : String) (en : Entry) : Bool := (D.inbound name).any (·.source == en.node)

/-- The source of a node that was taken last. -/
def lastSource? (h : List Entry) (name : String) : Option Entry :=
  (h.filter (D.leads name)).getLast?

/-- The source of a node that was taken last has items for it. -/
def Fed (h : List Entry) (name : String) : Prop :=
  ∃ en, D.lastSource? h name = some en ∧ D.feeds en name

/-- What a node that was taken has handed on. -/
def output? (h : List Entry) (name : String) : Option (List Items) :=
  (h.find? (·.node == name)).map D.handed

/-- A node with what its sources have handed on. -/
def gathered (h : List Entry) (name : String) : Entry :=
  Entry.gather name (D.inbound name) fun l => ((D.output? h l.source).getD []).getD l.output []

/-- Why an entry is taken after others: the run began with it, or all sources of its node were taken
and the last one fed it. -/
def Due (begun h : List Entry) (en : Entry) : Prop :=
  en ∈ begun ∨ (D.Complete h en.node ∧ D.Fed h en.node ∧ en = D.gathered h en.node)

variable {D} {h k : List Entry} {name : String} {en : Entry}

theorem leads_iff : D.leads name en = true ↔ ∃ l ∈ D.inbound name, l.source = en.node := by
  simp only [leads, List.any_eq_true, beq_iff_eq]

theorem leads_of_feeds (feeds : D.feeds en name) : D.leads name en = true :=
  leads_iff.2 (D.source feeds)

theorem Fed.mem (fed : D.Fed h name) : ∃ en ∈ h, D.feeds en name := by
  obtain ⟨en, last, feeds⟩ := fed
  exact ⟨en, (List.mem_filter.1 (List.mem_of_getLast? last)).1, feeds⟩

/-! ### Later entries

What is told of a node whose sources were all taken does not change any more. -/

theorem Complete.subset (complete : D.Complete h name) (sub : h ⊆ k) : D.Complete k name :=
  fun l hl =>
    let ⟨en, hen, node⟩ := complete l hl
    ⟨en, sub hen, node⟩

/-- A node whose sources were all taken has no source among later entries. -/
theorem Complete.later (complete : D.Complete h name) (once : ((h ++ k).map Entry.node).Nodup)
    (hen : en ∈ k) : D.leads name en = false := by
  rw [← Bool.not_eq_true, leads_iff]
  rintro ⟨l, hl, source⟩
  obtain ⟨en', hen', node⟩ := complete l hl
  exact Entry.node_ne_of_nodup once hen' hen (node.trans source)

theorem lastSource?_append (h : List Entry) (later : ∀ en ∈ k, D.leads name en = false) :
    D.lastSource? (h ++ k) name = D.lastSource? h name := by
  have none : k.filter (D.leads name) = [] :=
    List.filter_eq_nil_iff.2 fun en hen => by rw [later en hen]; exact Bool.false_ne_true
  rw [lastSource?, List.filter_append, none, List.append_nil, lastSource?]

/-- A source that was just taken is the last one. -/
theorem lastSource?_concat (h : List Entry) (leads : D.leads name en = true) :
    D.lastSource? (h ++ [en]) name = some en := by
  rw [lastSource?, List.filter_append, List.filter_singleton, leads, cond_true,
    List.getLast?_concat]

theorem Complete.fed_append (complete : D.Complete h name)
    (once : ((h ++ k).map Entry.node).Nodup) : D.Fed (h ++ k) name ↔ D.Fed h name := by
  rw [Fed, lastSource?_append h fun en hen => complete.later once hen, Fed]

/-- What a node has handed on is the same in any history that goes on from there. -/
theorem output?_subset (sub : h ⊆ k) (once : (k.map Entry.node).Nodup) (hen : en ∈ h) :
    D.output? k en.node = D.output? h en.node := by
  have taken : ∀ {m : List Entry}, en ∈ m → m ⊆ k → D.output? m en.node = some (D.handed en) := by
    intro m hm hmk
    cases found : m.find? (·.node == en.node) with
    | none =>
      have := List.find?_eq_none.1 found en hm
      simp only [beq_self_eq_true, not_true_eq_false] at this
    | some en' =>
      have same : en'.node = en.node := by simpa using List.find?_some found
      rw [output?, found, Option.map_some,
        Entry.eq_of_node_eq once (hmk (List.mem_of_find?_eq_some found)) (hmk hm) same]
  rw [taken (sub hen) (List.Subset.refl k), taken hen sub]

/-- What a node that has just been taken hands on is new; that of the others stays. -/
theorem output?_concat (new : ∀ en' ∈ h, en'.node ≠ en.node) (name : String) :
    D.output? (h ++ [en]) name
      = if name = en.node then some (D.handed en) else D.output? h name := by
  rw [output?, List.find?_append]
  split
  · rename_i same
    have none : h.find? (·.node == name) = none :=
      List.find?_eq_none.2 fun en' hen' => by simpa [same] using new en' hen'
    rw [none, same, Option.none_or, List.find?_singleton, beq_self_eq_true, if_pos rfl,
      Option.map_some]
  · rename_i other
    have none : [en].find? (·.node == name) = none := by
      simpa using fun same : en.node = name => other same.symm
    rw [none, Option.or_none, output?]

theorem Complete.gathered_subset (complete : D.Complete h name) (sub : h ⊆ k)
    (once : (k.map Entry.node).Nodup) : D.gathered k name = D.gathered h name := by
  refine Entry.gather_congr fun l hl => ?_
  obtain ⟨en, hen, node⟩ := complete l hl
  rw [← node, output?_subset sub once hen]

theorem Due.append {begun : List Entry} (due : D.Due begun h en)
    (once : ((h ++ k).map Entry.node).Nodup) : D.Due begun (h ++ k) en := by
  refine due.imp_right fun ⟨complete, fed, gathered⟩ => ⟨?_, ?_, ?_⟩
  · exact complete.subset (List.subset_append_left h k)
  · exact (complete.fed_append once).2 fed
  · rw [complete.gathered_subset (List.subset_append_left h k) once]
    exact gathered

/-! ## The account of a run -/

/-- Everything that was taken or is on the stack is due, and what is due was taken or is on the
stack. -/
structure Account (D : Dataflow) (begun h stack : List Entry) : Prop where
  once : ((h ++ stack).map Entry.node).Nodup
  /-- Nothing leads back to where the run began. -/
  apart : ∀ en ∈ h ++ stack, ∀ en' ∈ begun, ¬ D.feeds en en'.node
  begins : begun ⊆ h ++ stack
  taken : ∀ a en, a ++ [en] <+: h → D.Due begun a en
  stacked : ∀ en ∈ stack, D.Due begun h en
  come : ∀ name, D.Complete h name → D.Fed h name → ∃ en ∈ h ++ stack, en.node = name

variable {begun stack pushed : List Entry}

/-- A run begins with nothing but what it begins with. -/
theorem Account.begin (once : (begun.map Entry.node).Nodup)
    (apart : ∀ en ∈ begun, ∀ en' ∈ begun, ¬ D.feeds en en'.node) : D.Account begun [] begun where
  once := once
  apart := apart
  begins := List.Subset.refl begun
  taken a en taken := by simp at taken
  stacked _ hen := .inl hen
  come _ _ := fun ⟨_, last, _⟩ => by
    simp only [lastSource?, List.filter_nil, List.getLast?_nil, reduceCtorEq] at last

/-- **A step keeps the account.** The entry on top is taken, and its completion pushes the nodes it
feeds that have all their sources by then. -/
theorem Account.step (account : D.Account begun h (en :: stack))
    (pushes : ∀ en', en' ∈ pushed ↔ D.feeds en en'.node ∧ D.Complete (h ++ [en]) en'.node ∧
      en' = D.gathered (h ++ [en]) en'.node)
    (once : ((h ++ [en] ++ (pushed ++ stack)).map Entry.node).Nodup)
    (apart : ∀ en₁ ∈ h ++ [en] ++ (pushed ++ stack), ∀ en₂ ∈ begun, ¬ D.feeds en₁ en₂.node) :
    D.Account begun (h ++ [en]) (pushed ++ stack) := by
  have before : h ++ en :: stack = h ++ [en] ++ stack := by
    rw [List.append_assoc, List.singleton_append]
  have all : h ++ en :: stack ⊆ h ++ [en] ++ (pushed ++ stack) := by
    rw [before]
    exact ((List.sublist_append_right pushed stack).append_left _).subset
  have early : ((h ++ [en]).map Entry.node).Nodup :=
    once.sublist ((List.sublist_append_left _ _).map Entry.node)
  refine ⟨once, apart, fun b hb => all (account.begins hb), fun a en' taken => ?_,
    fun en' hen' => ?_, fun name complete fed => ?_⟩
  -- What is taken in this step was on the stack, and was due there with the same history.
  · rcases List.prefix_concat_iff.1 taken with same | old
    · obtain ⟨rfl, last⟩ := List.append_inj' same rfl
      obtain rfl := List.singleton_inj.1 last
      exact account.stacked en' List.mem_cons_self
    · exact account.taken a en' old
  -- What is pushed is fed by the entry that was taken, which is the last source of it to be taken.
  · rcases List.mem_append.1 hen' with new | old
    · obtain ⟨feeds, complete, gathered⟩ := (pushes en').1 new
      exact .inr ⟨complete, ⟨en, lastSource?_concat h (leads_of_feeds feeds), feeds⟩, gathered⟩
    · exact (account.stacked en' (List.mem_cons_of_mem en old)).append early
  -- What has become due was either fed by the entry that was taken or was due before.
  · obtain ⟨en₁, last, feeds⟩ := fed
    cases leads : D.leads name en with
    | true =>
      rw [lastSource?_concat h leads] at last
      obtain rfl := Option.some.inj last
      refine ⟨D.gathered (h ++ [en]) name, List.mem_append_right _ (List.mem_append_left _ ?_), rfl⟩
      exact (pushes _).2 ⟨feeds, complete, rfl⟩
    | false =>
      -- The entry that was taken is for no source of the node, so nothing has changed for it.
      have complete' : D.Complete h name := fun l hl => by
        obtain ⟨en', hen', node⟩ := complete l hl
        rcases List.mem_append.1 hen' with old | new
        · exact ⟨en', old, node⟩
        · obtain rfl := List.mem_singleton.1 new
          exact absurd (leads_iff.2 ⟨l, hl, node.symm⟩) (Bool.not_eq_true _ ▸ leads)
      rw [lastSource?_append h fun en' hen' => by rw [List.mem_singleton.1 hen', leads]] at last
      obtain ⟨en', hen', node⟩ := account.come name complete' ⟨en₁, last, feeds⟩
      exact ⟨en', all hen', node⟩

/-! ### The account in the end -/

theorem Account.nodup (account : D.Account begun h []) : (h.map Entry.node).Nodup := by
  have once := account.once
  rwa [List.append_nil] at once

/-- What is fed is no start. -/
theorem Account.not_fed (account : D.Account begun h []) (hen : en ∈ begun) :
    ¬ D.Fed h en.node := by
  intro fed
  obtain ⟨en', hen', feeds⟩ := fed.mem
  exact account.apart en' (List.mem_append_left [] hen') en hen feeds

/-- What was taken was due when it was, and is due in the end. -/
theorem Account.due (account : D.Account begun h []) (hen : en ∈ h) : D.Due begun h en := by
  obtain ⟨a, b, rfl⟩ := List.append_of_mem hen
  have due := account.taken a en ⟨b, by rw [List.append_assoc, List.singleton_append]⟩
  exact due.append account.nodup

/-- **When the stack is empty, the entries that were taken are those that are due.** -/
theorem Account.mem_iff (account : D.Account begun h []) : en ∈ h ↔ D.Due begun h en := by
  refine ⟨account.due, fun due => ?_⟩
  rcases due with start | ⟨complete, fed, gathered⟩
  · have := account.begins start
    rwa [List.append_nil] at this
  -- Something was taken for this node, and as it was due as well, it carries the same items.
  · obtain ⟨en', hen', node⟩ := account.come en.node complete fed
    rw [List.append_nil] at hen'
    rcases account.due hen' with start | ⟨_, _, gathered'⟩
    · exact absurd (node ▸ fed) (account.not_fed start)
    · rw [gathered, ← node, ← gathered']
      exact hen'

end Dataflow

/-! ## The dataflow of a workflow -/

/-- The node as it is anywhere on the canvas. -/
def Node.unplaced (n : Node) : Node := { n with position := {} }

/-- The workflow with all nodes in one place. -/
def Workflow.unplaced (w : Workflow) : Workflow := { w with nodes := w.nodes.map Node.unplaced }

/-- The task without its number. -/
def Task.unnumbered (t : Task) : Task := { t with index := 0 }

namespace Engine

/-- What an execution comes to is told by the node, apart from its place, and by its items: `told`
tells it for all nodes of a workflow. -/
def Local (e : Engine) (w : Workflow) (told : Node → List Items → Attempt) : Prop :=
  ∀ n, n.unplaced ∈ w.unplaced.nodes → ∀ x s en, e.attempt x s n en = told n.unplaced en.inputs

/-- What is recorded of an execution. -/
def settled (e : Engine) (told : Node → List Items → Attempt) (n : Node) (en : Entry) : Settled :=
  match told n.unplaced en.inputs with
  | .returns r | .cancelsRun r | .lingers r => r.settle n.onError (e.registry.outputs n.type)
  | .breaks _ => { status := .error, output := [] }

/-- What a node hands on. -/
def handed (e : Engine) (told : Node → List Items → Attempt) (g : Graph) (en : Entry) :
    List Items :=
  ((g.node? en.node).map fun n =>
    if n.disabled then [en.inputs.headD []] else (e.settled told n en).output).getD []

/-- The task of an entry, but for its number; entries of disabled nodes have none. -/
def written (e : Engine) (told : Node → List Items → Attempt) (g : Graph) (en : Entry) :
    List Task :=
  ((g.node? en.node).map fun n =>
    if n.disabled then []
    else
      let s := e.settled told n en
      [{ index := 0, startTime := e.now, elapsed := e.took en, status := s.status,
         output := s.output, error := s.error, sources := en.sources }]).getD []

/-- The dataflow of a graph whose nodes do what is told. -/
def dataflow (e : Engine) (told : Node → List Items → Attempt) (g : Graph) : Dataflow where
  inbound := g.inbound
  handed := e.handed told g
  written := e.written told g
  feeds en name := g.Feeds en.node (e.handed told g en) name
  source feeds :=
    let ⟨l, hl, source, _⟩ := feeds.link
    ⟨l, hl, source⟩

variable {e : Engine} {told : Node → List Items → Attempt} {x : Execution} {g : Graph}
  {h begun stack : List Entry} {p p' : Pass} {en : Entry} {n : Node}

theorem handed_of_disabled (e : Engine) (told : Node → List Items → Attempt)
    (node : g.node? en.node = some n) (disabled : n.disabled = true) :
    e.handed told g en = [en.inputs.headD []] ∧ e.written told g en = [] := by
  simp only [handed, written, node, Option.map_some, Option.getD_some, disabled, if_true, and_self]

/-- What is recorded of a node that does what is told. -/
theorem Records.handed {φ : Phase} {q : Pass} {t : Task} {s : RunState}
    (own : e.Local x.graph.workflow told) (records : Records e x φ en n q t s)
    (node : x.graph.node? en.node = some n) (enabled : n.disabled = false)
    (taken : φ.next? = some en) :
    e.handed told x.graph en = t.output ∧ e.written told x.graph en = [t.unnumbered] := by
  obtain ⟨a, r, works, result, rfl⟩ := records.works
  have known : n.unplaced ∈ x.graph.workflow.unplaced.nodes :=
    List.mem_map_of_mem (Graph.mem_of_node? node)
  -- The attempt was made in some state of the run, which has no part in it.
  have attempt : a = told n.unplaced en.inputs := by
    cases works with
    | taken => exact own n known x q.state en
    | lingered => simp only [Phase.next?, reduceCtorEq] at taken
  have settled : e.settled told n en = r.settle n.onError (e.registry.outputs n.type) := by
    rw [Engine.settled, ← attempt]
    rcases result with rfl | rfl <;> rfl
  simp only [Engine.handed, written, node, Option.map_some, Option.getD_some, enabled,
    Bool.false_eq_true, if_false, settled]
  exact ⟨rfl, rfl⟩

/-! ## The account of the engine -/

/-- What the state keeps is what the dataflow tells of the history. -/
structure Kept (D : Dataflow) (h : List Entry) (s : RunState) : Prop where
  outputs : ∀ name, s.agenda.outputs.get? name = D.output? h name
  tasks : ∀ name, (s.tasks.tasks name).map Task.unnumbered
    = (h.filter (·.node == name)).flatMap D.written

/-- A pass whose history accounts for its stack and for what it has kept. -/
structure Reckoning (e : Engine) (told : Node → List Items → Attempt) (g : Graph)
    (begun h : List Entry) (s : RunState) : Prop where
  account : (e.dataflow told g).Account begun h s.agenda.stack
  kept : Kept (e.dataflow told g) h s

/-- What a completion pushes, where the outputs of a node's sources are those that the dataflow
tells of some entries. -/
theorem mem_pushes_of_outputs {a : Agenda} {output : List Items} {en' : Entry} {k : List Entry}
    (handed : e.handed told g en = output)
    (outputs : ∀ l ∈ g.inbound en'.node, (g.complete a en.node output).outputs.get? l.source
      = (e.dataflow told g).output? k l.source) :
    en' ∈ g.pushes a en.node output ↔ (e.dataflow told g).feeds en en'.node ∧
      (e.dataflow told g).Complete k en'.node ∧
      en' = (e.dataflow told g).gathered k en'.node := by
  have outputOf : ∀ l ∈ g.inbound en'.node, (g.complete a en.node output).outputOf l.source l.output
      = (((e.dataflow told g).output? k l.source).getD []).getD l.output [] := fun l hl => by
    rw [← outputs l hl]
    rfl
  have contains : ∀ l ∈ g.inbound en'.node,
      ((g.complete a en.node output).outputs.contains l.source = true ↔
        ∃ en' ∈ k, en'.node = l.source) := fun l hl => by
    rw [Named.contains, outputs l hl, Dataflow.output?, Option.isSome_map, List.find?_isSome]
    simp only [beq_iff_eq]
  rw [Graph.mem_pushes, Entry.gather_congr outputOf]
  refine and_congr ?_ (and_congr ?_ Iff.rfl)
  · rw [← handed]
    rfl
  · exact forall₂_congr contains

/-- What a completion pushes, as the dataflow tells it. -/
theorem mem_pushes_dataflow {a : Agenda} {output : List Items} {en' : Entry}
    (handed : e.handed told g en = output)
    (outputs : ∀ name, (g.complete a en.node output).outputs.get? name
      = (e.dataflow told g).output? (h ++ [en]) name) :
    en' ∈ g.pushes a en.node output ↔ (e.dataflow told g).feeds en en'.node ∧
      (e.dataflow told g).Complete (h ++ [en]) en'.node ∧
      en' = (e.dataflow told g).gathered (h ++ [en]) en'.node :=
  mem_pushes_of_outputs handed fun l _ => outputs l.source

/-- In an orderly run nothing has items for a start. -/
theorem Orderly.not_feeds {starts : List String} {φ : Phase} (orderly : Orderly g starts h φ p)
    (apart : g.Apart starts) {name : String} (start : name ∈ starts)
    (hen : en ∈ h ++ p.state.agenda.stack) : ¬ (e.dataflow told g).feeds en name := by
  intro feeds
  obtain ⟨l, hl, source⟩ := (e.dataflow told g).source feeds
  exact apart en.node name (orderly.reached en hen) start (Graph.link_iff.2 ⟨l, hl, source⟩)

/-- A run is accounted for when it begins. -/
theorem Reckoning.begin {starts : List String}
    (orderly : Orderly g starts [] (.ready p) p) (apart : g.Apart starts)
    (nodes : ∀ en ∈ p.state.agenda.stack, en.node ∈ starts) (fresh : Fresh p) :
    Reckoning e told g p.state.agenda.stack [] p.state := by
  refine ⟨.begin orderly.once fun en hen en' hen' => ?_, fun name => ?_, fun name => ?_⟩
  · exact orderly.not_feeds apart (nodes en' hen') hen
  · rw [fresh.outputs]
    rfl
  · rw [fresh.tasks]
    rfl

/-- **A completion keeps the account.** -/
theorem Reckoning.complete {starts : List String} {φ' : Phase} {s : RunState} {output : List Items}
    (reckoning : Reckoning e told g begun h s) (top : s.agenda.stack = en :: stack)
    (orderly' : Orderly g starts (h ++ [en]) φ' p') (apart : g.Apart starts)
    (nodes : ∀ en ∈ begun, en.node ∈ starts) (handed : e.handed told g en = output)
    (agenda : p'.state.agenda = g.complete (s.withStack stack).agenda en.node output)
    (tasks : ∀ name, (p'.state.tasks.tasks name).map Task.unnumbered
      = (s.tasks.tasks name).map Task.unnumbered ++
        if name = en.node then e.written told g en else []) :
    Reckoning e told g begun (h ++ [en]) p'.state := by
  -- Three things are accounted for: what is on the stack, what the nodes have given out, and their
  -- tasks.
  have account := reckoning.account
  rw [top] at account
  -- The node completes for the first time, so what was written of the others before stands.
  have new : ∀ en' ∈ h, en'.node ≠ en.node := fun en' hen' =>
    Entry.node_ne_of_nodup account.once hen' List.mem_cons_self
  have outputs : ∀ name, (g.complete (s.withStack stack).agenda en.node output).outputs.get? name
      = (e.dataflow told g).output? (h ++ [en]) name := fun name => by
    rw [Graph.complete_outputs, Dataflow.output?_concat new, Named.get?_insert,
      ← reckoning.kept.outputs name, ← handed]
    rfl
  have stacked : p'.state.agenda.stack
      = g.pushes (s.withStack stack).agenda en.node output ++ stack := by
    rw [agenda, Graph.complete_stack]
    rfl
  refine ⟨?_, fun name => by rw [agenda, outputs], fun name => ?_⟩
  · rw [stacked]
    refine account.step (fun en' => mem_pushes_dataflow handed outputs) ?_ fun en₁ hen₁ en₂ hen₂ =>
      ?_
    · rw [← stacked]
      exact orderly'.once
    · rw [← stacked] at hen₁
      exact orderly'.not_feeds apart (nodes en₂ hen₂) hen₁
  · rw [tasks, reckoning.kept.tasks, List.filter_append, List.flatMap_append]
    refine congrArg (_ ++ ·) ?_
    -- The tasks of the node are those it has just written, and no other node gets one.
    by_cases same : name = en.node
    · simp only [same, if_pos, List.filter_singleton, beq_self_eq_true, cond_true,
        List.flatMap_singleton]
      rfl
    · have other : (en.node == name) = false := beq_false_of_ne (Ne.symm same)
      simp only [if_neg same, List.filter_singleton, other, cond_false, List.flatMap_nil]

/-- **A step keeps the account** as long as the run goes on. -/
theorem Reckoning.step {starts : List String} (silent : e.Silent)
    (own : e.Local x.graph.workflow told) (reckoning : Reckoning e told x.graph begun h p.state)
    (orderly' : Orderly x.graph starts (h ++ (Phase.ready p).next?.toList) (.ready p') p')
    (apart : x.graph.Apart starts) (nodes : ∀ en ∈ begun, en.node ∈ starts)
    (effect : Effect e x (.ready p) (.ready p') p p') (goes : Phase.ready p' ≠ .ready p) :
    Reckoning e told x.graph begun (h ++ (Phase.ready p).next?.toList) p'.state := by
  -- The run goes on, so the effect is that of a disabled node or one that has completed.
  cases effect with
  | idle _ _ phase =>
    rcases phase with same | stopped
    · exact absurd same goes
    · simp only [reduceCtorEq] at stopped
  | refused _ _ _ phase => simp only [reduceCtorEq] at phase
  | lingers _ _ _ _ _ _ _ phase => simp only [reduceCtorEq] at phase
  | @bypassed en n stack next _ node disabled state _ _ _ whole =>
    have top : p.state.agenda.stack = en :: stack := by rw [whole silent, next]; rfl
    rw [next] at orderly' ⊢
    have name := Graph.name_of_node? node
    obtain ⟨handed, written⟩ := handed_of_disabled e told node disabled
    refine reckoning.complete top orderly' apart nodes handed (by rw [state, name]) fun other => ?_
    rw [state, written, ite_self, List.append_nil]
  | failed _ _ _ _ _ _ phase => simp only [reduceCtorEq] at phase
  | @completed en n q t s stack till holds records _ _ _ state _ whole =>
    cases holds with
    | taking next node enabled =>
      have top : p.state.agenda.stack = en :: stack := by rw [whole silent, next]; rfl
      rw [next] at orderly' ⊢
      have name := Graph.name_of_node? node
      obtain ⟨handed, written⟩ := records.handed own node enabled next
      refine reckoning.complete top orderly' apart nodes handed (by rw [state, name]) fun other =>
        ?_
      rw [state, written, ← name]
      by_cases same : other = n.name
      · rw [same, if_pos rfl]
        simp only [RunState.recorded, RunData.tasks_record_self, List.map_append,
          List.map_singleton]
      · rw [if_neg same, List.append_nil]
        simp only [RunState.recorded, RunData.tasks_record_of_ne same]

/-! ## The end of a run -/

/-- **The account of a run that came to a good end.** Its stack is empty, so that everything that is
due was taken. -/
theorem Reckoning.rest {starts : List String} {m : Nat} {P : Pass} (silent : e.Silent)
    (own : e.Local x.graph.workflow told) (apart : x.graph.Apart starts)
    (nodes : ∀ en ∈ begun, en.node ∈ starts) (orderly : Orderly x.graph starts h (.ready p) p)
    (reckoning : Reckoning e told x.graph begun h p.state)
    (stops : e.steps x m (.ready p) = .stopped P false) (fine : P.state.error = none)
    (ended : P.state.waitTill = none) :
    P.state.agenda.stack = [] ∧ Reckoning e told x.graph begun
      (h ++ e.taken x m (.ready p)) P.state := by
  induction m generalizing h p with
  | zero => simp only [steps, reduceCtorEq] at stops
  | succ m ih =>
    have turn := turn_step silent.watched x (.ready p)
    rw [steps] at stops
    rw [taken, ← List.append_assoc]
    generalize next : e.step x (.ready p) = φ at *
    cases φ with
    | ready p' =>
      have effect := turn.effect rfl rfl
      have orderly' := orderly.step apart rfl effect
      -- A run that stood still here would never have stopped.
      have goes : Phase.ready p' ≠ .ready p := fun same => by
        rw [← same] at next
        rw [steps_of_rest next] at stops
        simp only [reduceCtorEq] at stops
      exact ih orderly' (reckoning.step silent own orderly' apart nodes effect goes) stops
    -- A node that lingers waits for a cancellation; none has come, so the run would never have
    -- stopped.
    | lingering p' n en r =>
      cases turn with
      | lingers works canceled =>
        have rest : e.step x (.lingering p' n en r) = .lingering p' n en r := by
          simp only [Engine.step, canceled, works.going, Bool.false_eq_true, if_false]
        rw [steps_of_rest rest] at stops
        simp only [reduceCtorEq] at stops
    | broken message =>
      rw [steps_of_rest rfl] at stops
      simp only [reduceCtorEq] at stops
    | stopped P' c =>
      rw [steps_of_rest rfl] at stops
      rw [taken_stopped, List.append_nil]
      cases turn with
      | ended done =>
        obtain ⟨rfl, going⟩ := Phase.stopped.inj stops
        have empty : p.state.agenda.stack = [] :=
          done.resolve_left fun canceled => Bool.false_ne_true (going.symm.trans canceled)
        have none : (Phase.ready p).next? = none := by simp [Phase.next?, empty]
        rw [none, Option.toList_none, List.append_nil]
        exact ⟨empty, reckoning⟩
      | refused _ _ _ state =>
        obtain ⟨rfl, -⟩ := Phase.stopped.inj stops
        simp only [state, reduceCtorEq] at fine
      | failed _ _ state =>
        obtain ⟨rfl, -⟩ := Phase.stopped.inj stops
        simp only [state, reduceCtorEq] at fine
      | paused _ _ state =>
        obtain ⟨rfl, -⟩ := Phase.stopped.inj stops
        simp only [state, reduceCtorEq] at ended

/-- The entries that a run takes until it rests. -/
def history (e : Engine) (x : Execution) (φ : Phase) : List Entry := e.taken x φ.bound φ

/-- Only a run without an error that has ended by itself succeeds. -/
theorem success_iff {failed crashed canceled waiting : Bool} :
    RunStatus.ofOutcome failed crashed canceled waiting = .success ↔
      failed = false ∧ crashed = false ∧ canceled = false ∧ waiting = false := by
  revert failed crashed canceled waiting
  decide

/-- **A run that was started and succeeded is accounted for.** -/
theorem Reckoning.of_success {w : Workflow} {id : String} {mode : RunMode}
    {startNode : Option String} {items : Option Items} {s : RunState} {r : Run} {log : HookLog}
    (silent : e.Silent) (own : e.Local w told) (acyclic : w.Acyclic)
    (roots : startNode.isSome ∨ e.RootTriggers w)
    (prepared : e.prepare w (.start id mode startNode items) = .ok (x, s))
    (ends : e.ending x (e.begin x s false) = .run r log) (success : r.status = .success) :
    r.state.agenda.stack = [] ∧ Reckoning e told x.graph s.agenda.stack
      (e.history x (e.begin x s false)) r.state := by
  obtain ⟨graph, names, starts, rfl⟩ := prepare_start prepared
  obtain rfl := workflow_of_graph graph
  obtain ⟨nodup, _, apart⟩ := startNodes_apart acyclic roots starts
  obtain ⟨p, begins, fresh, sub, _, _⟩ := begin_start silent.watched prepared false
  obtain ⟨p', begins', state, _, _, _⟩ :=
    silent.begin x (RunState.starting startNode names items) false
  obtain rfl := Phase.ready.inj (begins.symm.trans begins')
  -- A run that is started begins with entries for its starting nodes and nothing else.
  have nodes : ∀ en ∈ p.state.agenda.stack, en.node ∈ names := by
    rw [state]
    intro en hen
    obtain ⟨name, hname, rfl⟩ := List.mem_map.1 hen
    exact hname
  have orderly : Orderly x.graph names [] (.ready p) p :=
    .begin prepared starts nodup fresh.outputs sub
  -- It has stopped with success, so neither an error nor a moment to wait for has been set on the
  -- way.
  obtain ⟨P, c, stops, agrees⟩ := stopped_of_ending silent ends
  have status : (e.runOf x P.state c).status = .success := agrees.status.symm.trans success
  obtain ⟨fine, -, rfl, ended⟩ := success_iff.1 status
  rw [begins] at stops ⊢
  have rest := (Reckoning.begin orderly apart nodes fresh).rest silent own apart nodes orderly stops
    (Option.isSome_eq_false_iff.1 fine |> Option.isNone_iff_eq_none.1)
    (Option.isSome_eq_false_iff.1 ended |> Option.isNone_iff_eq_none.1)
  rw [agrees.state, ← state]
  exact rest

end Engine

end Conveyor
