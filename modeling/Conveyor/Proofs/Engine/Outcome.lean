/-
How a pass ends, and what its run tells of it.

The loop has five exits. The stack is empty, the run was canceled, a node paused it, a node failed,
or one entry too many was taken; that a node is not there can be ruled out. Each exit sets another
piece of the state, and the status is read off those pieces afterwards. That the pieces do not get
in each other's way is an invariant of the run: as long as it goes on, it has neither an error nor a
moment to wait for (`Sane`). A run that is resumed begins without them as well, since only a run
that waits is resumed, and one that waits has no error. `Genuine` are the requests for which this
holds by itself: to start a run, to repeat one with any tasks, or to resume one that engines have
made and paused.

`Exit` lists the exits with what is true of the pass there, its trail included. The status is then a
matter of looking at the cases.
-/
import Conveyor.Proofs.Engine.Once
import Conveyor.Proofs.Engine.Trail

set_option autoImplicit false

namespace Conveyor

/-! ## Hooks that change nothing -/

/-- A hook that leaves everything it is shown as it was. -/
structure Hook.Inert (k : Hook) : Prop where
  runStarts : ∀ w s, (k.runStarts w s).2 = s
  nodeStarts : ∀ node s, (k.nodeStarts node s).2 = s
  nodeEnds : ∀ node t s, (k.nodeEnds node t s).2 = s
  runEnds : ∀ w r, (k.runEnds w r).2 = r

theorem Hook.Inert.silent {k : Hook} (inert : k.Inert) : k.Silent where
  runStarts := inert.runStarts
  nodeStarts := inert.nodeStarts
  nodeEnds := inert.nodeEnds
  runEnds w r := by rw [inert.runEnds]; exact .refl r

/-- A completion pushes only nodes that are there. -/
theorem Graph.pushes_known {g : Graph} {a : Agenda} {node : String} {output : List Items}
    {en : Entry} (pushed : en ∈ g.pushes a node output) : en.node ∈ g.workflow.nodeNames := by
  obtain ⟨feeds, -⟩ := Graph.mem_pushes.1 pushed
  obtain ⟨l, hl, -, -⟩ := feeds.link
  exact target_known hl

/-- A failure is recorded as one only if the node stops its workflow then, and without an output. -/
theorem NodeResult.settle_error (r : NodeResult) (policy : ErrorPolicy) (regular : Nat)
    (failed : (r.settle policy regular).status = .error) :
    policy = .stopWorkflow ∧ (r.settle policy regular).output = [] := by
  cases r with
  | output ports => simp only [settle, reduceCtorEq] at failed
  | triggered ports => simp only [settle, reduceCtorEq] at failed
  | paused ports till => simp only [settle, reduceCtorEq] at failed
  | failed errors =>
    cases policy with
    | stopWorkflow => exact ⟨rfl, rfl⟩
    | continueRegularOutput => simp only [settle, reduceCtorEq] at failed
    | continueErrorOutput => simp only [settle, reduceCtorEq] at failed

namespace Engine

/-- All hooks of an engine are inert. -/
def Inert (e : Engine) : Prop := ∀ k ∈ e.hooks, k.Inert

variable {e : Engine} {x : Execution} {φ φ' φ₀ : Phase} {p p' : Pass} {g : Graph} {w : Workflow}
  {h : List Entry} {ts : List (String × Task)} {r : Request} {s : RunState} {run : Run}

theorem Inert.silent (inert : e.Inert) : e.Silent := fun k hk => (inert k hk).silent

/-- With inert hooks, the run is the one that the pass makes. -/
theorem Inert.finish (inert : e.Inert) (x : Execution) (p : Pass) (c : Bool) :
    (e.finish x p c).1 = e.runOf x p.state c := by
  refine Eq.symm (callHooks_rel (σ := Run) (fun _ => rfl) Eq.trans _ 0 (fun f hf run => ?_) _)
  obtain ⟨k, hk, rfl⟩ := List.mem_map.1 hf
  exact ((inert k hk).runEnds x.graph.workflow run).symm

/-! ## A run that goes on has nothing to end for -/

/-- Only a step that ends the run sets an error, or a moment to wait for. -/
theorem Effect.calm (effect : Effect e x φ φ' p p') (hp : φ.pass? = some p)
    (hp' : φ'.pass? = some p') (going : φ'.Going) :
    φ.Going ∧ p'.state.error = p.state.error ∧ p'.state.waitTill = p.state.waitTill := by
  refine ⟨(effect.left hp hp' going).1, ?_⟩
  cases effect with
  | idle next state phase => rw [state]; exact ⟨rfl, rfl⟩
  | refused next below state phase => exact (phase ▸ going).elim
  | lingers next below _ _ state => rw [state]; exact ⟨rfl, rfl⟩
  | bypassed next below _ _ state => rw [state]; exact ⟨rfl, rfl⟩
  | failed holds _ below _ _ state phase => exact (phase ▸ going).elim
  | completed holds _ below _ _ state phase =>
    rcases phase with ⟨_, same, _⟩ | ⟨stopped, _⟩
    · rw [state]; exact ⟨rfl, same⟩
    · exact (stopped ▸ going).elim

/-- As long as a run goes on, it has the error and the moment to wait for that it began with. -/
theorem Leads.calm (hk : e.Watched) {p₀ : Pass} (hp₀ : φ₀.pass? = some p₀) (run : Leads e x φ₀ h φ)
    (hp : φ.pass? = some p) (going : φ.Going) :
    p.state.error = p₀.state.error ∧ p.state.waitTill = p₀.state.waitTill := by
  refine Leads.induct hk (fun _ φ p => φ.Going →
    p.state.error = p₀.state.error ∧ p.state.waitTill = p₀.state.waitTill) (fun p hp _ => ?_)
    (fun _ hp hp' calm effect going => ?_) (fun calm _ => calm trivial) (fun calm _ => calm trivial)
      run hp going
  · rw [Option.some.inj (hp.symm.trans hp₀)]
    exact ⟨rfl, rfl⟩
  · obtain ⟨before, error, waitTill⟩ := effect.calm hp hp' going
    rw [error, waitTill]
    exact calm before

/-- Where a run goes on, it has no error and nothing to wait for, and where it has ended, it has at
most one of them. All nodes on the stack are there. -/
structure Sane (g : Graph) (φ : Phase) (p : Pass) : Prop where
  known : ∀ en ∈ p.state.agenda.stack, en.node ∈ g.workflow.nodeNames
  calm : φ.Going → p.state.error = none ∧ p.state.waitTill = none
  either : p.state.error = none ∨ p.state.waitTill = none

/-- What a step leaves of the stack was there before. -/
theorem Sane.below (sane : Sane g φ p) {stack : List Entry}
    (below : (φ.next?.toList ++ stack).Sublist p.state.agenda.stack) :
    ∀ en ∈ stack, en.node ∈ g.workflow.nodeNames :=
  fun en hen => sane.known en (below.subset (List.mem_append_right _ hen))

/-- The node of an entry that is taken is there. -/
theorem Sane.node?_ne_none {en : Entry} (sane : Sane g φ p) (hp : φ.pass? = some p)
    (next : φ.next? = some en) :
    g.node? en.node ≠ none := by
  have top : en ∈ p.state.agenda.stack := by
    refine (Phase.next?_sublist hp).subset ?_
    rw [next]
    exact List.mem_singleton_self en
  have found := Graph.node?_isSome_iff.2 (sane.known en top)
  intro missing
  rw [missing] at found
  exact Bool.noConfusion found

/-- An entry is refused only for being one too many, since its node is there; the error is the
engine's then. -/
theorem Sane.overrun {en : Entry} {err : RunError} (sane : Sane g φ p) (hp : φ.pass? = some p)
    (next : φ.next? = some en) (why : p.left = 0 ∨ g.node? en.node = none)
    (blames : err.node = some en.node) (limit : p.left = 0 → err.message = e.limitMessage) :
    p.left = 0 ∧ err = ⟨e.limitMessage, some en.node⟩ := by
  have spent : p.left = 0 := why.resolve_right (sane.node?_ne_none hp next)
  refine ⟨spent, ?_⟩
  cases err
  exact RunError.mk.injEq .. ▸ ⟨limit spent, blames⟩

/-- After a completion all nodes on the stack are there if they were before it. -/
theorem known_complete {a : Agenda} {node : String} {output : List Items}
    (known : ∀ en ∈ a.stack, en.node ∈ g.workflow.nodeNames) :
    ∀ en ∈ (g.complete a node output).stack, en.node ∈ g.workflow.nodeNames := by
  intro en hen
  rw [Graph.complete_stack] at hen
  rcases List.mem_append.1 hen with pushed | rest
  · exact Graph.pushes_known pushed
  · exact known en rest

/-- **Every step keeps a run sane.** -/
theorem Sane.step (sane : Sane x.graph φ p) (hp : φ.pass? = some p) (hp' : φ'.pass? = some p')
    (effect : Effect e x φ φ' p p') : Sane x.graph φ' p' := by
  -- As long as the run goes on it has neither failed nor paused, whatever the step was.
  have calm : φ'.Going → p'.state.error = none ∧ p'.state.waitTill = none := by
    intro going
    obtain ⟨before, error, waitTill⟩ := effect.calm hp hp' going
    rw [error, waitTill]
    exact sane.calm before
  cases effect with
  | idle next state =>
    exact ⟨by rw [state]; exact sane.known, calm, by rw [state]; exact sane.either⟩
  | refused next below state =>
    refine ⟨by rw [state]; exact sane.below below, calm, .inr ?_⟩
    -- The run stops with an error, so it must not be paused as well.
    rw [state]
    exact (sane.calm (Phase.going_of_next? next)).2
  | lingers next below _ _ state =>
    refine ⟨by rw [state]; exact sane.below below, calm, .inl ?_⟩
    rw [state]
    exact (sane.calm (Phase.going_of_next? next)).1
  | bypassed next below _ _ state =>
    refine ⟨by rw [state]; exact known_complete (sane.below below), calm, .inl ?_⟩
    rw [state]
    exact (sane.calm (Phase.going_of_next? next)).1
  | failed holds _ below _ _ state =>
    refine ⟨by rw [state]; exact sane.below below, calm, .inr ?_⟩
    rw [state]
    exact (sane.calm holds.going).2
  | completed holds _ below _ _ state =>
    refine ⟨by rw [state]; exact known_complete (sane.below below), calm, .inl ?_⟩
    rw [state]
    exact (sane.calm holds.going).1

/-- To cancel a run that goes on changes nothing of this. -/
theorem Sane.cancel (sane : Sane g φ p) (going : φ.Going) (same : p'.state = p.state) :
    Sane g φ' p' := by
  obtain ⟨fine, awake⟩ := sane.calm going
  rw [← same] at fine awake
  exact ⟨by rw [same]; exact sane.known, fun _ => ⟨fine, awake⟩, .inl fine⟩

/-- A run that begins sane is so at every moment. -/
theorem Leads.sane (hk : e.Watched) (begun : ∀ p, φ₀.pass? = some p → Sane x.graph φ₀ p)
    (run : Leads e x φ₀ h φ) (hp : φ.pass? = some p) : Sane x.graph φ p :=
  Leads.induct hk (fun _ φ p => Sane x.graph φ p) begun
    (fun _ hp hp' sane effect => sane.step hp hp' effect)
    (fun sane => sane.cancel trivial rfl) (fun sane => sane.cancel trivial rfl) run hp

/-! ## Requests for what engines have made -/

/-- What engines may be asked for on a workflow: to start a run, to repeat one with any tasks, or to
resume one that an engine has made of this workflow at such a request, from the run itself or from
its record. -/
inductive Genuine (w : Workflow) : Request → Prop
  | start {id : String} {mode : RunMode} {startNode : Option String} {items : Option Items} :
      Genuine w (.start id mode startNode items)
  | rerun {id : String} {mode : RunMode} {startNode : String} {prior : RunData} :
      Genuine w (.rerun id mode startNode prior)
  | resume {e : Engine} {r : Request} {h : List Entry} {ts : List (String × Task)} {run run' : Run}
      (genuine : Genuine w r) (watched : e.Watched) (completes : e.Completes w r h ts run)
      (same : run.Agrees run') : Genuine w (.resume run')

/-- A run can begin with a state that has no error and nothing to wait for, and knows all nodes on
its stack. -/
structure Ready (s : RunState) (w : Workflow) : Prop where
  known : ∀ en ∈ s.agenda.stack, en.node ∈ w.nodeNames
  fine : s.error = none
  awake : s.waitTill = none

/-- A run that begins ready begins sane. -/
theorem Ready.begin (ready : Ready s x.graph.workflow) (hk : e.Watched) (canceled : Bool) :
    ∀ p, (e.begin x s canceled).pass? = some p → Sane x.graph (e.begin x s canceled) p := by
  intro p hp
  obtain ⟨q, hq, ⟨stack, sub, state⟩, -⟩ := hk.begin x s canceled
  rw [hq] at hp ⊢
  obtain rfl := Option.some.inj hp
  have fine : q.state.error = none := by rw [state]; exact ready.fine
  refine ⟨fun en hen => ?_, fun _ => ⟨fine, by rw [state]; exact ready.awake⟩, .inl fine⟩
  rw [state] at hen
  exact ready.known en (sub.subset hen)

/-- The nodes that a run is asked to start at are there. -/
theorem startNodes_known {startNode : Option String} {names : List String}
    (starts : e.startNodes g startNode = .ok names) :
    ∀ name ∈ names, name ∈ g.workflow.nodeNames := by
  intro name hname
  cases startNode with
  | some start =>
    obtain ⟨known, rfl⟩ := startNodes_some starts
    exact List.mem_singleton.1 hname ▸ known
  | none =>
    obtain rfl := startNodes_none starts
    obtain ⟨n, hn, _, _, rfl⟩ := mem_triggers.1 hname
    exact List.mem_map_of_mem hn

/-- Hooks that watch leave the status as the pass has it. -/
theorem Watched.finish_status (watched : e.Watched) (x : Execution) (p : Pass) (c : Bool) :
    (e.finish x p c).1.status
      = RunStatus.ofOutcome p.state.error.isSome false c p.state.waitTill.isSome := by
  refine Eq.symm (callHooks_rel (σ := Run) (R := fun r r' => r.status = r'.status) (fun _ => rfl)
    Eq.trans _ 0 (fun f hf run => ?_) (e.runOf x p.state c))
  obtain ⟨k, hk, rfl⟩ := List.mem_map.1 hf
  exact ((watched k hk).runEnds x.graph.workflow run).1.symm

/-- A run that waits when it is made was paused without an error. -/
theorem Sane.paused (watched : e.Watched) {c : Bool} (sane : Sane x.graph (.stopped p c) p)
    (waiting : (e.finish x p c).1.status = .waiting) : p.state.error = none := by
  rcases sane.either with fine | awake
  · exact fine
  · rw [watched.finish_status, awake] at waiting
    cases failed : p.state.error with
    | none => rfl
    | some err =>
      rw [failed] at waiting
      cases c <;> simp only [RunStatus.ofOutcome, Option.isSome_none, Option.isSome_some, if_true,
        Bool.false_eq_true, if_false, reduceCtorEq] at waiting

/-- **A genuine request begins ready.** -/
theorem Genuine.ready (genuine : Genuine w r) (prepared : e.prepare w r = .ok (x, s)) :
    Ready s w := by
  induction genuine generalizing e x s with
  | start =>
    obtain ⟨graph, names, starts, rfl⟩ := prepare_start prepared
    obtain rfl := workflow_of_graph graph
    refine ⟨fun en hen => ?_, rfl, rfl⟩
    obtain ⟨name, hname, rfl⟩ := List.mem_map.1 hen
    exact startNodes_known starts name hname
  | @rerun id mode startNode prior =>
    obtain ⟨graph, rfl⟩ := prepare_rerun prepared
    obtain rfl := workflow_of_graph graph
    rw [prepare] at prepared
    obtain ⟨_, graph', prepared⟩ := ok_of_bind prepared
    obtain ⟨_, starts, _⟩ := ok_of_bind prepared
    obtain rfl := Except.ok.inj (graph.symm.trans graph')
    refine ⟨fun en hen => ?_, rfl, rfl⟩
    obtain rfl := List.mem_singleton.1 hen
    -- The entry that is rebuilt is for the node itself, which was checked to be there.
    have rebuilt : (x.graph.rebuild prior startNode).node = startNode := by
      rw [Graph.rebuild]
      split <;> rfl
    rw [rebuilt]
    exact (startNodes_some starts).1
  | @resume e' r' h ts run run' genuine watched completes same ih =>
    obtain ⟨waiting, graph, rfl⟩ := prepare_resume prepared
    cases completes with
    | @intro x' s' canceled p c prepared' trail =>
      -- The pass that has made the run began ready as well, and what it has left is known to be
      -- sane.
      have ready := ih prepared'
      obtain ⟨graph', _⟩ := prepare_graph prepared'
      obtain rfl := workflow_of_graph graph'
      have sane := Leads.sane watched (ready.begin watched canceled) trail.leads rfl
      obtain ⟨stack, sub, state⟩ := watched.finish x' p c
      have left : run'.state = p.state.withStack stack := same.state.trans state
      refine ⟨fun en hen => ?_, ?_, rfl⟩
      · rw [left] at hen
        exact sane.known en (sub.subset hen)
      · rw [left]
        exact sane.paused watched (same.status.symm.trans waiting)

/-! ## The exits of the loop -/

/-- All executions of a trail let the run go on. -/
def Clean (ts : List (String × Task)) : Prop := ∀ u ∈ ts, u.2.status = .success

theorem clean_append {ts ts' : List (String × Task)} :
    Clean (ts ++ ts') ↔ Clean ts ∧ Clean ts' := by
  simp only [Clean, List.mem_append, or_imp, forall_and]

/-- Why a pass ends with an error. -/
inductive Fails (e : Engine) (w : Workflow) (h : List Entry) (ts : List (String × Task))
    (err : RunError) : Prop
  /-- The last entry that was taken is one too many. -/
  | limit {before : List Entry} {en : Entry} (taken : h = before ++ [en])
      (full : before.length = e.maxIterations) (clean : Clean ts)
      (error : err = ⟨e.limitMessage, some en.node⟩)
  /-- The last execution has failed, and its node stops the workflow then. -/
  | node {before : List (String × Task)} {n : Node} {t : Task} (last : ts = before ++ [(n.name, t)])
      (clean : Clean before) (status : t.status = .error) (output : t.output = [])
        (known : n ∈ w.nodes)
      (policy : n.onError = .stopWorkflow) (error : err.node = some n.name)

/-- Where a pass stops. -/
inductive Exit (e : Engine) (w : Workflow) (h : List Entry) (ts : List (String × Task))
    (s : RunState) :
    Bool → Prop
  | done (clean : Clean ts) (empty : s.agenda.stack = []) (fine : s.error = none)
      (awake : s.waitTill = none) : Exit e w h ts s false
  | canceled (clean : Clean ts) (fine : s.error = none) (awake : s.waitTill = none) :
      Exit e w h ts s true
  | paused {till : Time.Instant} (clean : Clean ts) (fine : s.error = none)
      (asleep : s.waitTill = some till) : Exit e w h ts s false
  | failed {err : RunError} (fails : Fails e w h ts err) (error : s.error = some err)
      (awake : s.waitTill = none) : Exit e w h ts s false

/-- A pass on its way to an exit. -/
structure Bound (e : Engine) (x : Execution) (h : List Entry) (ts : List (String × Task))
    (φ : Phase) (p : Pass) : Prop where
  sane : Sane x.graph φ p
  clean : φ.Going → Clean ts
  count : φ.Going → p.left + h.length = e.maxIterations
  held : ∀ {q n en r}, φ = .lingering q n en r → n ∈ x.graph.workflow.nodes
  exit : ∀ {q c}, φ = .stopped q c → Exit e x.graph.workflow h ts q.state c

/-- The node of an entry in hand is there. -/
theorem Bound.node {en : Entry} {n : Node} (bound : Bound e x h ts φ p) (holds : Holds x φ en n) :
    n ∈ x.graph.workflow.nodes := by
  cases holds with
  | taking _ node => exact Graph.mem_of_node? node
  | lingering => exact bound.held rfl

/-- A pass that goes on to take another entry is on its way. -/
theorem Bound.ready (sane : Sane x.graph (.ready p) p) (clean : Clean ts)
    (count : p.left + h.length = e.maxIterations) : Bound e x h ts (.ready p) p :=
  ⟨sane, fun _ => clean, fun _ => count, nofun, nofun⟩

/-- A pass that stops at an exit has got there. -/
theorem Bound.stopped {c : Bool} (sane : Sane x.graph (.stopped p c) p)
    (exit : Exit e x.graph.workflow h ts p.state c) : Bound e x h ts (.stopped p c) p := by
  refine ⟨sane, False.elim, False.elim, nofun, fun stops => ?_⟩
  obtain ⟨rfl, rfl⟩ := Phase.stopped.inj stops
  exact exit

/-- **Every step keeps a pass on its way, or takes it to an exit.** -/
theorem Bound.step (silent : e.Silent) (bound : Bound e x h ts φ p) (hp : φ.pass? = some p)
    (hp' : (e.step x φ).pass? = some p') (effect : Effect e x φ (e.step x φ) p p') :
    Bound e x (h ++ φ.next?.toList) (ts ++ (e.concludes? x φ).toList) (e.step x φ) p' := by
  have sane' := bound.sane.step hp hp' effect
  have count : (e.step x φ).Going → p'.left + (h ++ φ.next?.toList).length = e.maxIterations :=
    fun going =>
    (effect.total hp hp' going h).trans (bound.count (effect.left hp hp' going).1)
  have none := concludes?_eq_none (x := x) silent hp hp'
  generalize after : e.step x φ = φ' at effect sane' count hp'
  cases effect with
  | idle next state phase =>
    rw [next, none (by rw [state]), Option.toList_none, Option.toList_none, List.append_nil,
      List.append_nil]
    -- A pass that goes on and takes nothing stops here; one that had stopped stays what it is.
    by_cases going : φ.Going
    · rcases phase with rfl | rfl
      · obtain rfl := Option.some.inj (hp.symm.trans hp')
        exact bound
      · obtain ⟨rfl, done⟩ := done_of_step going next after
        obtain ⟨fine, awake⟩ := bound.sane.calm going
        obtain rfl := Option.some.inj hp'
        refine .stopped sane' ?_
        cases canceled : p.canceled with
        | true => exact .canceled (bound.clean going) fine awake
        | false => exact .done (bound.clean going) (done canceled) fine awake
    · obtain rfl : φ = φ' := (step_of_rest going).symm.trans after
      obtain rfl := Option.some.inj (hp.symm.trans hp')
      exact bound
  | @refused en stack err next below state phase whole why blames limit =>
    have going := Phase.going_of_next? next
    obtain ⟨spent, overrun⟩ := bound.sane.overrun hp next why blames limit
    rw [next, none (by rw [state]; rfl), Option.toList_none, List.append_nil]
    have full : h.length = e.maxIterations := by
      have count := bound.count going
      rwa [spent, Nat.zero_add] at count
    have fails : Fails e x.graph.workflow (h ++ [en]) ts err :=
      .limit rfl full (bound.clean going) overrun
    subst phase
    exact .stopped sane'
      (.failed fails (by rw [state]) (by rw [state]; exact (bound.sane.calm going).2))
  | lingers next below node enabled state index left phase canceled =>
    have going := Phase.going_of_next? next
    rw [none (by rw [state]; rfl), Option.toList_none, List.append_nil]
    refine ⟨sane', fun _ => bound.clean going, count, fun lingers => ?_,
      fun stops => by simp only [phase, reduceCtorEq] at stops⟩
    obtain ⟨-, rfl, -, -⟩ := Phase.lingering.inj (phase.symm.trans lingers)
    exact Graph.mem_of_node? node
  | bypassed next below node disabled state index left phase =>
    have going := Phase.going_of_next? next
    rw [none (by rw [state]), Option.toList_none, List.append_nil]
    subst phase
    exact .ready sane' (bound.clean going) (count trivial)
  | @failed en n q t s stack err holds records below index status state phase whole blames =>
    have going := holds.going
    rw [records.concludes? silent, Option.toList_some]
    -- The result of the node is recorded as an error only under the policy to stop, and then
    -- without any output.
    obtain ⟨a, result, works, _, task⟩ := records.works
    obtain ⟨policy, output⟩ := result.settle_error n.onError (e.registry.outputs n.type)
      (by rw [task] at status; exact status)
    have fails : Fails e x.graph.workflow (h ++ φ.next?.toList) (ts ++ [(n.name, t)]) err :=
      .node rfl (bound.clean going) status (by rw [task]; exact output)
        (bound.node holds) policy blames
    subst phase
    exact .stopped sane'
      (.failed fails (by rw [state]) (by rw [state]; exact (bound.sane.calm going).2))
  | @completed en n q t s stack till holds records below index status state phase =>
    have going := holds.going
    rw [records.concludes? silent, Option.toList_some]
    have clean : Clean (ts ++ [(n.name, t)]) := by
      refine clean_append.2 ⟨bound.clean going, fun u hu => ?_⟩
      rw [List.mem_singleton.1 hu]
      exact status
    rcases phase with ⟨rfl, -⟩ | ⟨rfl, paused⟩
    · exact .ready sane' clean (count trivial)
    · obtain ⟨till, rfl⟩ := Option.isSome_iff_exists.1 paused
      exact .stopped sane'
        (.paused clean (by rw [state]; exact (bound.sane.calm going).1) (by rw [state]))

/-- A pass that begins ready begins on its way. -/
theorem Bound.begin (ready : Ready s x.graph.workflow) (hk : e.Watched) (canceled : Bool) :
    ∀ p, (e.begin x s canceled).pass? = some p → Bound e x [] [] (e.begin x s canceled) p := by
  intro p hp
  have sane := ready.begin hk canceled p hp
  obtain rfl := Option.some.inj hp
  exact .ready sane nofun rfl

/-- **A pass that stops is at one of the exits.** -/
theorem Trail.exit (silent : e.Silent) (ready : Ready s x.graph.workflow) {canceled c : Bool}
    (trail : Trail e x (e.begin x s canceled) h ts (.stopped p c)) :
    Exit e x.graph.workflow h ts p.state c := by
  have bound : Bound e x h ts (.stopped p c) p :=
    Trail.induct silent.watched (fun h ts φ p => Bound e x h ts φ p)
      (Bound.begin ready silent.watched canceled)
      (fun hp hp' bound effect => bound.step silent hp hp' effect)
      (fun bound => ⟨bound.sane.cancel trivial rfl, bound.clean, bound.count, nofun, nofun⟩)
      (fun bound => by
        refine ⟨bound.sane.cancel trivial rfl, bound.clean, bound.count, fun same => ?_, nofun⟩
        obtain ⟨-, rfl, -, -⟩ := Phase.lingering.inj same
        exact bound.held rfl)
      trail rfl
  exact bound.exit rfl

/-! ## What the status says -/

/-- What the status of a run says of it, and of the pass that made it: `h` are the entries that the
pass has taken, and `ts` the tasks that it has added to those on record. -/
structure Classified (e : Engine) (w : Workflow) (r : Request) (h : List Entry)
    (ts : List (String × Task)) (run : Run) : Prop where
  tasks : run.state.tasks = r.tasks.recordAll ts
  finished : run.finished = true ↔ run.status = .success
  success : run.status = .success →
    run.state.agenda.stack = [] ∧ run.state.error = none ∧ run.state.waitTill = none
  waiting : run.status = .waiting ↔ run.state.waitTill.isSome = true
  waitTill : run.waitTill = run.state.waitTill
  failed : run.status = .failed ↔ run.state.error.isSome = true
  error : ∀ err, run.state.error = some err → Fails e w h ts err
  canceled : run.status = .canceled → Clean ts ∧ run.state.error = none

/-- **The status of a run tells how its pass ended**, whatever its nodes do, whenever it is
canceled, and also if the pass resumes a run that was paused: the pieces of the state that the exits
set agree with each other, and with what the pass has added to the record. -/
theorem outcome_classified (inert : e.Inert) (genuine : Genuine w r)
    (completes : e.Completes w r h ts run) :
    Classified e w r h ts run := by
  have record := (completes.tasks inert.silent).1
  cases completes with
  | @intro x s canceled p c prepared trail =>
    obtain rfl := workflow_of_graph (prepare_graph prepared).1
    have exit := trail.exit inert.silent (genuine.ready prepared)
    rw [inert.finish] at record ⊢
    -- Each exit has set its part of the state and no other, and the status reads them in turn.
    cases exit with
    | done clean empty fine awake =>
      refine ⟨record, ?_, fun _ => ⟨empty, fine, awake⟩, ?_, rfl, ?_, ?_, ?_⟩ <;>
        simp [runOf, fine, awake, RunStatus.ofOutcome]
    | canceled clean fine awake =>
      refine ⟨record, ?_, ?_, ?_, rfl, ?_, ?_, fun _ => ⟨clean, fine⟩⟩ <;>
        simp [runOf, fine, awake, RunStatus.ofOutcome]
    | paused clean fine asleep =>
      refine ⟨record, ?_, ?_, ?_, rfl, ?_, ?_, ?_⟩ <;>
        simp [runOf, fine, asleep, RunStatus.ofOutcome]
    | @failed err fails error awake =>
      refine ⟨record, ?_, ?_, ?_, rfl, ?_, fun err' same => ?_, ?_⟩
      rotate_left 4
      · obtain rfl := Option.some.inj (error.symm.trans same)
        exact fails
      all_goals simp [runOf, error, awake, RunStatus.ofOutcome]

end Engine

/-- On the detour the run pauses at Start. Resumed by an engine whose nodes fail, it fails at J. -/
theorem detour_fails : Detour.paused.status = .waiting ∧ Detour.failed.status = .failed ∧
    Detour.failed.state.error = some ⟨"No way", some "J"⟩ ∧
    ∃ h ts, Engine.Classified (Detour.engine Detour.fault) Detour.workflow
      (.resume Detour.paused) h ts
      Detour.failed := by
  have inert : (Detour.engine Detour.fault).Inert := fun _ hook => absurd hook List.not_mem_nil
  have genuine := Engine.Genuine.resume .start (Detour.watched _) Detour.pauses (.refl _)
  exact ⟨rfl, rfl, rfl, _, _, Engine.outcome_classified inert genuine Detour.fails⟩

end Conveyor
