/-
Every node is taken at most once.

The output of a node that has completed is never forgotten, so a join that has come together stays
together, and nothing in the engine keeps it from being pushed again. What keeps it is the shape of
the workflow. A join is looked at when one of its sources completes, so it could be pushed twice
only if a source completed twice, and where connections form no cycle, that goes back to an entry
that the run began with.

The invariant is `Orderly`: the nodes that were taken and those on the stack are all different; what
is not a start has all its sources among the kept outputs; and every kept output is of a node that
was taken. A completion pushes only nodes behind a node whose output was not kept until now. Such a
node is no start, since no connection leads from what the starts reach back to a start, and it is
not among the entries that have all their sources, since one of them had no output. So it is new.

A pause ends a pass, and another engine may take the run up again from what the pass has left.
`Course` is the relation of a run over all its passes.
-/
import Conveyor.NodeType.Flow
import Conveyor.Proofs.Engine.History
import Mathlib.Logic.Relation

set_option autoImplicit false

namespace Conveyor

/-! ## Workflows without cycles -/

namespace Workflow

/-- A connection that carries items leads from one node to another. -/
def Link (w : Workflow) (a b : String) : Prop :=
  ∃ edge ∈ w.connections.edges, edge.source = a ∧ edge.target.node = b

/-- No node can be reached from itself along connections that carry items. -/
def Acyclic (w : Workflow) : Prop := ∀ name, ¬ Relation.TransGen w.Link name name

/-- Connections that always lead upwards in some ranking form no cycle. -/
theorem acyclic_of_rank {w : Workflow} (rank : String → Nat)
    (upwards : ∀ edge ∈ w.connections.edges, rank edge.source < rank edge.target.node) :
    w.Acyclic := by
  have climbs : ∀ {a b}, Relation.TransGen w.Link a b → rank a < rank b := by
    intro a b path
    induction path with
    | single link =>
      obtain ⟨edge, hedge, rfl, rfl⟩ := link
      exact upwards edge hedge
    | tail _ link ih =>
      obtain ⟨edge, hedge, rfl, rfl⟩ := link
      exact Nat.lt_trans ih (upwards edge hedge)
  exact fun name cycle => Nat.lt_irrefl _ (climbs cycle)

end Workflow

namespace Graph

theorem link_iff {g : Graph} {a b : String} :
    g.workflow.Link a b ↔ ∃ l ∈ g.inbound b, l.source = a := by
  constructor
  · rintro ⟨⟨source, output, target⟩, hedge, rfl, rfl⟩
    exact ⟨_, mem_inbound_of_edge hedge, rfl⟩
  · rintro ⟨l, hl, rfl⟩
    exact ⟨_, edge_of_mem_inbound hl, rfl, rfl⟩

/-- The nodes that can be reached from some nodes. -/
def Reached (g : Graph) (starts : List String) (name : String) : Prop :=
  ∃ s ∈ starts, Relation.ReflTransGen g.workflow.Link s name

/-- No connection leads from what some nodes reach back to one of them. -/
def Apart (g : Graph) (starts : List String) : Prop :=
  ∀ a b, g.Reached starts a → b ∈ starts → ¬ g.workflow.Link a b

/-- Without cycles, nothing leads back to a single start. -/
theorem apart_singleton {g : Graph} (acyclic : g.workflow.Acyclic) (name : String) :
    g.Apart [name] := by
  rintro a b ⟨s, hs, path⟩ hb link
  obtain rfl := List.mem_singleton.1 hs
  obtain rfl := List.mem_singleton.1 hb
  exact acyclic _ (Relation.TransGen.tail' path link)

/-- A node that is reached is a node of the graph if the starts are. -/
theorem Reached.known {g : Graph} {starts : List String} {name : String}
    (reached : g.Reached starts name) (known : ∀ s ∈ starts, s ∈ g.workflow.nodeNames) :
    name ∈ g.workflow.nodeNames := by
  obtain ⟨s, hs, path⟩ := reached
  cases path with
  | refl => exact known name hs
  | tail _ link =>
    obtain ⟨l, hl, _⟩ := link_iff.1 link
    exact target_known hl

end Graph

/-! ## The invariant -/

/-- In a history that goes on without repetition, what comes later is of other nodes. -/
theorem Entry.node_ne_of_nodup {h k : List Entry} (once : ((h ++ k).map Entry.node).Nodup)
    {en en' : Entry} (hen : en ∈ h) (hen' : en' ∈ k) : en.node ≠ en'.node := by
  rw [List.map_append] at once
  exact (List.nodup_append.1 once).2.2 _ (List.mem_map_of_mem hen) _ (List.mem_map_of_mem hen')

namespace Engine

/-- A run in which no node was taken twice or is going to be. -/
structure Orderly (g : Graph) (starts : List String) (h : List Entry) (φ : Phase) (p : Pass) :
    Prop where
  once : ((h ++ p.state.agenda.stack).map Entry.node).Nodup
  reached : ∀ en ∈ h ++ p.state.agenda.stack, g.Reached starts en.node
  /-- What is not a start has all its sources among the kept outputs. -/
  origin : ∀ en ∈ h ++ p.state.agenda.stack, en.node ∈ starts ∨
    ∀ l ∈ g.inbound en.node, p.state.agenda.outputs.contains l.source = true
  done : ∀ name, p.state.agenda.outputs.contains name = true → ∃ en ∈ h, en.node = name
  /-- A node that lingers was taken and has not completed. -/
  held : ∀ {q n en r}, φ = .lingering q n en r →
    en ∈ h ∧ n.name = en.node ∧ p.state.agenda.outputs.contains n.name = false

variable {e : Engine} {x : Execution} {φ φ' : Phase} {g : Graph} {starts : List String}
  {h : List Entry} {p p' : Pass}

/-- What a step leaves of the entries in play. -/
theorem kept_sublist {stack : List Entry}
    (below : (φ.next?.toList ++ stack).Sublist p.state.agenda.stack) :
    (h ++ φ.next?.toList ++ stack).Sublist (h ++ p.state.agenda.stack) := by
  rw [List.append_assoc]
  exact below.append_left h

/-- A step that completes nothing keeps the order. -/
theorem Orderly.quiet {stack : List Entry} (orderly : Orderly g starts h φ p)
    (below : (φ.next?.toList ++ stack).Sublist p.state.agenda.stack)
    (agenda : p'.state.agenda = { p.state.agenda with stack := stack })
    (held : ∀ {q n en r}, φ' = .lingering q n en r → en ∈ h ++ φ.next?.toList ∧ n.name = en.node ∧
      p.state.agenda.outputs.contains n.name = false) :
    Orderly g starts (h ++ φ.next?.toList) φ' p' := by
  have sub := kept_sublist (h := h) below
  refine ⟨?_, fun en hen => ?_, fun en hen => ?_, fun name hname => ?_, fun lingers => ?_⟩
  · rw [agenda]
    exact orderly.once.sublist (sub.map Entry.node)
  · rw [agenda] at hen
    exact orderly.reached en (sub.subset hen)
  · rw [agenda] at hen ⊢
    exact orderly.origin en (sub.subset hen)
  · rw [agenda] at hname
    obtain ⟨en, hen, hnode⟩ := orderly.done name hname
    exact ⟨en, List.mem_append_left _ hen, hnode⟩
  · rw [agenda]
    exact held lingers

/-- A node whose output was not kept until now pushes only nodes that are new. -/
theorem Orderly.new (orderly : Orderly g starts h φ p) (apart : g.Apart starts) {m : String}
    (reached : g.Reached starts m) (fresh : p.state.agenda.outputs.contains m = false)
    {stack : List Entry} {output : List Items} {en : Entry}
    (pushed : en ∈ g.pushes { p.state.agenda with stack := stack } m output) :
    ∀ en' ∈ h ++ p.state.agenda.stack, en'.node ≠ en.node := by
  intro en' hen' same
  obtain ⟨feeds, _⟩ := Graph.mem_pushes.1 pushed
  obtain ⟨l, hl, source, _⟩ := feeds.link
  -- An older entry for this node is for a start or has all sources of the node; the one that feeds
  -- it has only just completed.
  rcases orderly.origin en' hen' with start | sources
  · exact apart m en.node reached (same ▸ start) (Graph.link_iff.2 ⟨l, hl, source⟩)
  · have := sources l (same ▸ hl)
    rw [source, fresh] at this
    exact Bool.false_ne_true this

/-- A completion keeps the order. -/
theorem Orderly.completes (apart : g.Apart starts) (orderly : Orderly g starts h φ p)
    {stack : List Entry} {en₀ : Entry} {m : String} {output : List Items}
    (below : (φ.next?.toList ++ stack).Sublist p.state.agenda.stack)
    (taken : en₀ ∈ h ++ φ.next?.toList) (name : m = en₀.node)
    (fresh : p.state.agenda.outputs.contains m = false)
    (agenda : p'.state.agenda = g.complete { p.state.agenda with stack := stack } m output)
    (moves : ∀ q n en r, φ' ≠ .lingering q n en r) :
    Orderly g starts (h ++ φ.next?.toList) φ' p' := by
  have sub := kept_sublist (h := h) below
  have hm : g.Reached starts m :=
    name ▸ orderly.reached en₀ (sub.subset (List.mem_append_left _ taken))
  -- Whatever is in play after the step has just been pushed or was in play before.
  have split : ∀ {en}, en ∈ h ++ φ.next?.toList ++ p'.state.agenda.stack →
      en ∈ g.pushes { p.state.agenda with stack := stack } m output ∨
        en ∈ h ++ p.state.agenda.stack := by
    intro en hen
    rcases List.mem_append.1 hen with hold | hstack
    · exact .inr (sub.subset (List.mem_append_left _ hold))
    · rw [agenda, Graph.complete_stack] at hstack
      exact (List.mem_append.1 hstack).imp_right fun hrest =>
        sub.subset (List.mem_append_right _ hrest)
  refine ⟨?_, fun en hen => ?_, fun en hen => ?_, fun other hother => ?_,
    fun lingers => absurd lingers (moves _ _ _ _)⟩
  · have old := orderly.once.sublist (sub.map Entry.node)
    rw [agenda, Graph.complete_stack]
    refine ((List.perm_append_comm_assoc _ _ _).map Entry.node).nodup_iff.2 ?_
    rw [List.map_append]
    refine List.nodup_append.2 ⟨g.nodup_pushes _ _ _, old, ?_⟩
    rintro _ hpushed _ hold rfl
    obtain ⟨en, hen, rfl⟩ := List.mem_map.1 hpushed
    obtain ⟨en', hen', same⟩ := List.mem_map.1 hold
    exact orderly.new apart hm fresh hen en' (sub.subset hen') same
  · rcases split hen with hpushed | hold
    · obtain ⟨s, hs, path⟩ := hm
      obtain ⟨feeds, _⟩ := Graph.mem_pushes.1 hpushed
      obtain ⟨l, hl, source, _⟩ := feeds.link
      exact ⟨s, hs, path.tail (Graph.link_iff.2 ⟨l, hl, source⟩)⟩
    · exact orderly.reached en hold
  · rw [agenda, Graph.complete_outputs]
    rcases split hen with hpushed | hold
    · exact .inr (Graph.mem_pushes.1 hpushed).2.1
    · exact (orderly.origin en hold).imp_right fun sources l hl =>
        (Named.contains_insert _ _ _ _).2 (.inr (sources l hl))
  · rw [agenda, Graph.complete_outputs] at hother
    rcases (Named.contains_insert _ _ _ _).1 hother with rfl | hold
    · exact ⟨en₀, taken, name.symm⟩
    · obtain ⟨en, hen, hnode⟩ := orderly.done other hold
      exact ⟨en, List.mem_append_left _ hen, hnode⟩

/-- The node of the entry that is taken next has not completed. -/
theorem Orderly.fresh (orderly : Orderly g starts h φ p) (hp : φ.pass? = some p) {en : Entry}
    (next : φ.next? = some en) : p.state.agenda.outputs.contains en.node = false := by
  rw [← Bool.not_eq_true]
  intro kept
  -- A node whose output is kept was taken already, and the entry on top would be its second one.
  obtain ⟨en', hen', same⟩ := orderly.done en.node kept
  have top : en ∈ p.state.agenda.stack :=
    (Phase.next?_sublist hp).subset (by rw [next]; exact List.mem_singleton_self en)
  exact Entry.node_ne_of_nodup orderly.once hen' top same

/-- The entry that a node holds was taken, and the node has not completed. -/
theorem Orderly.holds (orderly : Orderly x.graph starts h φ p) (hp : φ.pass? = some p) {en : Entry}
    {n : Node} (holds : Holds x φ en n) :
    en ∈ h ++ φ.next?.toList ∧ n.name = en.node ∧
      p.state.agenda.outputs.contains n.name = false := by
  cases holds with
  | taking next node enabled =>
    have name := Graph.name_of_node? node
    refine ⟨?_, name, name ▸ orderly.fresh hp next⟩
    rw [next]
    exact List.mem_append_right h (List.mem_singleton_self en)
  | lingering =>
    obtain ⟨taken, name, fresh⟩ := orderly.held rfl
    exact ⟨List.mem_append_left _ taken, name, fresh⟩

/-- **Every step keeps the order.** -/
theorem Orderly.step (apart : x.graph.Apart starts) (orderly : Orderly x.graph starts h φ p)
    (hp : φ.pass? = some p) (effect : Effect e x φ φ' p p') :
    Orderly x.graph starts (h ++ φ.next?.toList) φ' p' := by
  -- Completing and bypassing add an output, for a node that is fresh; the other effects leave the
  -- outputs as they are and drop entries at most.
  cases effect with
  | idle next state phase =>
    have below : (φ.next?.toList ++ p.state.agenda.stack).Sublist p.state.agenda.stack := by
      rw [next]
      exact List.Sublist.refl _
    refine orderly.quiet below (by rw [state]) fun lingers => ?_
    rcases phase with rfl | rfl
    · obtain ⟨taken, held⟩ := orderly.held lingers
      exact ⟨List.mem_append_left _ taken, held⟩
    · simp only [reduceCtorEq] at lingers
  | refused next below state phase =>
    exact orderly.quiet below (by rw [state]; rfl) fun lingers => by
      simp only [phase, reduceCtorEq] at lingers
  -- What lingers now was on top of the stack before.
  | lingers next below node enabled state index left phase =>
    refine orderly.quiet below (by rw [state]; rfl) fun lingers => ?_
    rw [phase] at lingers
    obtain ⟨-, rfl, rfl, -⟩ := Phase.lingering.inj lingers
    exact orderly.holds hp (.taking next node enabled)
  | failed holds records below index status state phase =>
    exact orderly.quiet below (by rw [state]; rfl) fun lingers => by
      simp only [phase, reduceCtorEq] at lingers
  | bypassed next below node disabled state index left phase =>
    have name := Graph.name_of_node? node
    refine orderly.completes apart below ?_ name (name ▸ orderly.fresh hp next) (by rw [state]; rfl)
      fun q n en r => by simp only [phase, ne_eq, reduceCtorEq, not_false_eq_true]
    rw [next]
    exact List.mem_append_right h (List.mem_singleton_self _)
  | completed holds records below index status state phase =>
    obtain ⟨taken, name, fresh⟩ := orderly.holds hp holds
    refine orderly.completes apart below taken name fresh (by rw [state]; rfl) fun q n en r => ?_
    rcases phase with ⟨phase, _⟩ | ⟨phase, _⟩ <;>
      simp only [phase, ne_eq, reduceCtorEq, not_false_eq_true]

/-! ## Beginning in order -/

/-- No connection leads to an enabled node that starts runs. -/
def RootTriggers (e : Engine) (w : Workflow) : Prop :=
  ∀ n ∈ w.nodes, n.disabled = false → e.startsRuns n = true → ∀ a, ¬ w.Link a n.name

/-- A run that starts at a node that is named starts there alone. -/
theorem startNodes_some {name : String} {names : List String}
    (starts : e.startNodes g (some name) = .ok names) :
    name ∈ g.workflow.nodeNames ∧ names = [name] := by
  simp only [startNodes] at starts
  split at starts
  · rename_i known
    exact ⟨Graph.node?_isSome_iff.1 known, (Except.ok.inj starts).symm⟩
  · simp only [reduceCtorEq] at starts

/-- A run for which no node is named starts at the triggers. -/
theorem startNodes_none {names : List String} (starts : e.startNodes g none = .ok names) :
    names = e.triggers g := by
  simp only [startNodes] at starts
  split at starts
  · simp only [reduceCtorEq] at starts
  · exact (Except.ok.inj starts).symm

/-- Triggers are the enabled nodes that start runs. -/
theorem mem_triggers {name : String} : name ∈ e.triggers g ↔
    ∃ n ∈ g.workflow.nodes, n.disabled = false ∧ e.startsRuns n = true ∧ n.name = name := by
  simp only [triggers, Graph.sortByPosition, mem_sortBy, List.mem_map, List.mem_filter,
    Bool.and_eq_true, Bool.not_eq_true', and_assoc]

theorem nodup_triggers (e : Engine) (g : Graph) : (e.triggers g).Nodup := by
  rw [triggers, Graph.sortByPosition, (sortBy_perm _ _).nodup_iff]
  exact g.names_nodup.sublist (List.filter_sublist.map Node.name)

/-- The nodes a run starts at are different nodes of the graph, and nothing leads back to them. -/
theorem startNodes_apart {startNode : Option String} {names : List String}
    (acyclic : g.workflow.Acyclic) (roots : startNode.isSome ∨ e.RootTriggers g.workflow)
    (starts : e.startNodes g startNode = .ok names) :
    names.Nodup ∧ (∀ s ∈ names, s ∈ g.workflow.nodeNames) ∧ g.Apart names := by
  cases startNode with
  | some name =>
    obtain ⟨known, rfl⟩ := startNodes_some starts
    refine ⟨List.nodup_singleton name, fun s hs => ?_, Graph.apart_singleton acyclic name⟩
    rw [List.mem_singleton.1 hs]
    exact known
  | none =>
    obtain rfl := startNodes_none starts
    refine ⟨nodup_triggers e g, fun s hs => ?_, fun a b _ hb => ?_⟩
    · obtain ⟨n, hn, _, _, rfl⟩ := mem_triggers.1 hs
      exact List.mem_map.2 ⟨n, hn, rfl⟩
    · obtain ⟨n, hn, enabled, trigger, rfl⟩ := mem_triggers.1 hb
      exact (roots.resolve_left Bool.false_ne_true) n hn enabled trigger a

/-- A run begins in order. -/
theorem Orderly.begin {w : Workflow} {s : RunState} {id : String} {mode : RunMode}
    {startNode : Option String} {items : Option Items} {names : List String}
    (prepared : e.prepare w (.start id mode startNode items) = .ok (x, s))
    (starts : e.startNodes x.graph startNode = .ok names) (nodup : names.Nodup)
    (outputs : p.state.agenda.outputs = []) (sub : p.state.agenda.stack.Sublist s.agenda.stack) :
    Orderly x.graph names [] (.ready p) p := by
  obtain ⟨_, names', starts', rfl⟩ := prepare_start prepared
  obtain rfl := Except.ok.inj (starts.symm.trans starts')
  have stack : (RunState.starting startNode names items).agenda.stack.map Entry.node = names := by
    simp only [RunState.starting, List.map_map, Function.comp_def, Entry.single, List.map_id']
  have start : ∀ en ∈ [] ++ p.state.agenda.stack, en.node ∈ names := fun en hen => by
    rw [← stack]
    exact List.mem_map.2 ⟨en, sub.subset hen, rfl⟩
  refine ⟨?_, fun en hen => ⟨_, start en hen, .refl⟩, fun en hen => .inl (start en hen), ?_, ?_⟩
  · rw [List.nil_append]
    exact (stack ▸ nodup).sublist (sub.map Entry.node)
  · intro name hname
    rw [outputs] at hname
    exact absurd hname Bool.false_ne_true
  · intro q n en r lingers
    simp only [reduceCtorEq] at lingers

/-! ## Courses -/

/-- A run over all its passes. It is started at a node that is named, or at triggers nothing leads
to; it may be canceled between any two steps; and when a pass has stopped, it can be resumed by the
same engine or another one, with the run that the pass has made or with what a record has kept of
it. -/
inductive Course (w : Workflow) : Engine → Execution → List Entry → Phase → Prop
  | started {e : Engine} {x : Execution} {s : RunState} {id : String} {mode : RunMode}
      {startNode : Option String} {items : Option Items} {canceled : Bool} (watched : e.Watched)
      (roots : startNode.isSome ∨ e.RootTriggers w)
      (prepared : e.prepare w (.start id mode startNode items) = .ok (x, s)) :
      Course w e x [] (e.begin x s canceled)
  | step {e : Engine} {x : Execution} {h : List Entry} {φ : Phase} (course : Course w e x h φ) :
      Course w e x (h ++ φ.next?.toList) (e.step x φ)
  | cancel {e : Engine} {x : Execution} {h : List Entry} {φ : Phase} (course : Course w e x h φ) :
      Course w e x h φ.cancel
  | resumed {e e' : Engine} {x x' : Execution} {h : List Entry} {p : Pass} {c canceled : Bool}
      {run : Run} {s : RunState} (course : Course w e x h (.stopped p c)) (watched : e'.Watched)
      (status : run.status = (e.finish x p c).1.status)
      (state : run.state = (e.finish x p c).1.state)
      (prepared : e'.prepare w (.resume run) = .ok (x', s)) :
      Course w e' x' h (e'.begin x' s canceled)

/-- What holds at every moment of a course: the entries in play are in order, and a pass has taken
no more entries than are counted. -/
structure Tended (w : Workflow) (e : Engine) (x : Execution) (starts : List String) (h : List Entry)
    (φ : Phase) : Prop where
  watched : e.Watched
  graph : w.graph = .ok x.graph
  taken : (h.map Entry.node).Nodup
  orderly : ∀ p, φ.pass? = some p → Orderly x.graph starts h φ p
  count : ∀ p, φ.pass? = some p → φ.Going → e.maxIterations ≤ p.left + h.length

theorem Tended.step {w : Workflow} (apart : x.graph.Apart starts)
    (tended : Tended w e x starts h φ) :
    Tended w e x starts (h ++ φ.next?.toList) (e.step x φ) := by
  have turn := turn_step tended.watched x φ
  refine ⟨tended.watched, tended.graph, ?_, fun p' hp' => ?_, fun p' hp' going => ?_⟩
  · cases next : φ.next? with
    | none =>
      rw [Option.toList_none, List.append_nil]
      exact tended.taken
    | some en =>
      obtain ⟨p, rfl⟩ := Phase.ready_of_next? next
      have once := (tended.orderly p rfl).once
      rw [← next]
      exact once.sublist (((Phase.next?_sublist rfl).append_left h).map Entry.node)
  · obtain ⟨p, hp⟩ := turn.pass hp'
    exact (tended.orderly p hp).step apart hp (turn.effect hp hp')
  · obtain ⟨p, hp⟩ := turn.pass hp'
    obtain ⟨went, left⟩ := (turn.effect hp hp').left hp hp' going
    have count := tended.count p hp went
    rw [List.length_append]
    omega

theorem Tended.cancel {w : Workflow} (tended : Tended w e x starts h φ) :
    Tended w e x starts h φ.cancel := by
  -- Canceling a pass changes its token and its phase only, and no clause of the order reads the
  -- token.
  cases φ with
  | ready p =>
    refine ⟨tended.watched, tended.graph, tended.taken, fun q hq => ?_, fun q hq going => ?_⟩
    · obtain rfl := Option.some.inj hq
      obtain ⟨once, reached, origin, done, _⟩ := tended.orderly p rfl
      exact ⟨once, reached, origin, done, fun lingers => by
        simp only [Phase.cancel, reduceCtorEq] at lingers⟩
    · obtain rfl := Option.some.inj hq
      exact tended.count p rfl trivial
  | lingering p n en r =>
    refine ⟨tended.watched, tended.graph, tended.taken, fun q hq => ?_, fun q hq going => ?_⟩
    · obtain rfl := Option.some.inj hq
      obtain ⟨once, reached, origin, done, held⟩ := tended.orderly p rfl
      refine ⟨once, reached, origin, done, fun lingers => ?_⟩
      obtain ⟨-, rfl, rfl, -⟩ := Phase.lingering.inj lingers
      exact held rfl
    · obtain rfl := Option.some.inj hq
      exact tended.count p rfl trivial
  | stopped p c => exact tended
  | broken m => exact tended

/-- A pass that is resumed goes on in the order in which the last one stopped. -/
theorem Tended.resume {w : Workflow} {e' : Engine} {x' : Execution} {c : Bool} {run : Run}
    {s : RunState} (tended : Tended w e x starts h (.stopped p c)) (watched : e'.Watched)
    (state : run.state = (e.finish x p c).1.state)
    (prepared : e'.prepare w (.resume run) = .ok (x', s)) (canceled : Bool) :
    Tended w e' x' starts h (e'.begin x' s canceled) := by
  obtain ⟨_, graph, rfl⟩ := prepare_resume prepared
  have same : x'.graph = x.graph := Except.ok.inj (graph.symm.trans tended.graph)
  obtain ⟨p', hp', trims, _, left, _⟩ :=
    watched.begin x' { run.state with waitTill := none } canceled
  obtain ⟨stack, sub, hs⟩ := trims
  -- The stack lost entries at the end of one pass and at the beginning of the next, and nothing
  -- else has changed.
  obtain ⟨stack', sub', hs'⟩ := tended.watched.finish x p c
  refine ⟨watched, graph, tended.taken, fun q hq => ?_, fun q hq _ => ?_⟩
  · rw [hp'] at hq ⊢
    obtain rfl := Option.some.inj hq
    have agenda : p'.state.agenda = { p.state.agenda with stack := stack } := by
      rw [hs, state, hs']
      rfl
    have below : ((Phase.stopped p c).next?.toList ++ stack).Sublist p.state.agenda.stack := by
      rw [state, hs'] at sub
      exact sub.trans sub'
    have orderly : Orderly x.graph starts (h ++ []) (.ready p') p' :=
      (tended.orderly p rfl).quiet below agenda fun lingers => by
        simp only [reduceCtorEq] at lingers
    rw [same]
    exact (List.append_nil h) ▸ orderly
  -- The new pass may take as many entries as its limit says, and none is taken yet.
  · rw [hp'] at hq
    obtain rfl := Option.some.inj hq
    omega

/-- **Every moment of a course is in order.** -/
theorem Course.tended {w : Workflow} (acyclic : w.Acyclic) (course : Course w e x h φ) :
    ∃ starts, x.graph.Apart starts ∧ (∀ s ∈ starts, s ∈ w.nodeNames) ∧ Tended w e x starts h φ := by
  -- The induction is on the course; its starts are those of the first pass, and they stay.
  induction course with
  | @started e x s id mode startNode items canceled watched roots prepared =>
    obtain ⟨graph, names, starts, _⟩ := prepare_start prepared
    obtain rfl := workflow_of_graph graph
    obtain ⟨nodup, known, apart⟩ := startNodes_apart acyclic roots starts
    obtain ⟨p, hp, fresh, sub, _, left⟩ := begin_start watched prepared canceled
    refine ⟨names, apart, known, watched, graph, List.nodup_nil, fun q hq => ?_, fun q hq _ => ?_⟩
    · rw [hp] at hq ⊢
      obtain rfl := Option.some.inj hq
      exact .begin prepared starts nodup fresh.outputs sub
    · rw [hp] at hq
      obtain rfl := Option.some.inj hq
      omega
  | step _ ih =>
    obtain ⟨starts, apart, known, tended⟩ := ih
    exact ⟨starts, apart, known, tended.step apart⟩
  | cancel _ ih =>
    obtain ⟨starts, apart, known, tended⟩ := ih
    exact ⟨starts, apart, known, tended.cancel⟩
  | resumed _ watched status state prepared ih =>
    obtain ⟨starts, apart, known, tended⟩ := ih
    have tended' := tended.resume watched state prepared
    -- The graph does not change from pass to pass, since it is built from the same workflow.
    have same := Except.ok.inj ((tended' false).graph.symm.trans tended.graph)
    exact ⟨starts, same ▸ apart, known, tended' _⟩

/-- **At most once.** In a workflow without cycles, every node is taken from the stack at most once
in the whole course of a run, over all its pauses, and nothing that was taken is on the stack again.
So an engine that allows as many entries as there are nodes never runs out of them. -/
theorem taken_at_most_once {w : Workflow} (acyclic : w.Acyclic) (course : Course w e x h φ) :
    (h.map Entry.node).Nodup ∧
      (∀ p, φ.pass? = some p → ((h ++ p.state.agenda.stack).map Entry.node).Nodup) ∧
      (w.nodes.length ≤ e.maxIterations → φ.exhausted = false) := by
  obtain ⟨starts, _, known, tended⟩ := course.tended acyclic
  refine ⟨tended.taken, fun p hp => (tended.orderly p hp).once, ?_⟩
  intro allowed
  rw [← Bool.not_eq_true, Phase.exhausted_iff]
  rintro ⟨p, rfl, next, spent⟩
  have orderly := tended.orderly p rfl
  obtain rfl := workflow_of_graph tended.graph
  -- All entries in play are for different nodes, and one of them has still to be taken.
  have within : (h ++ p.state.agenda.stack).length ≤ x.graph.workflow.nodes.length := by
    have nodes : (h ++ p.state.agenda.stack).map Entry.node ⊆ x.graph.workflow.nodeNames := by
      intro name hname
      obtain ⟨en, hen, rfl⟩ := List.mem_map.1 hname
      exact (orderly.reached en hen).known known
    have := orderly.once.length_le_of_subset nodes
    rwa [List.length_map, Workflow.nodeNames, List.length_map] at this
  -- An engine that is exhausted has taken as many entries as there are nodes.
  have waiting : 0 < p.state.agenda.stack.length := by
    have := (Phase.next?_sublist (φ := .ready p) rfl).length_le
    obtain ⟨en, hen⟩ := Option.isSome_iff_exists.1 next
    rw [hen] at this
    exact this
  have count := tended.count p rfl trivial
  rw [List.length_append] at within
  omega

end Engine

/-- The detour has no cycle: A lies behind Start, and J behind both. -/
theorem Detour.acyclic : Detour.workflow.Acyclic :=
  Workflow.acyclic_of_rank (fun name => if name = "Start" then 0 else if name = "A" then 1 else 2)
    (by decide)

/-- On the detour each of the three nodes is taken once, and that is all the engine allows. -/
theorem detour_taken_once : ∃ h : List Entry,
    h.map Entry.node = ["Start", "A", "J"] ∧ (h.map Entry.node).Nodup ∧
    ((Detour.engine NodeType.noOp).steps Detour.execution 3
      (Detour.first NodeType.noOp)).exhausted = false := by
  have begun : Engine.Course Detour.workflow (Detour.engine NodeType.noOp) Detour.execution []
      (Detour.first NodeType.noOp) :=
    .started (Detour.watched _) (.inl rfl) (Detour.prepared _)
  have once := Engine.taken_at_most_once Detour.acyclic begun.step.step.step
  exact ⟨_, by decide, once.1, once.2.2 (by decide)⟩

end Conveyor
