/-
A run does not depend on how its workflow is written down.

A workflow can be written down in many orders, and a graph tells none of them apart
(`Workflow/Arrangement`). Here that is carried over to runs. Two runs of two arrangements go on in
lockstep: their states are the same but for the order in which they note where items came from. So
they take the same entries in the same order, record the same tasks with the same numbers, and come
to the same end, whether a run is started, repeated from a node on, or resumed. The order of
execution is a matter of names, places and connections only.

What is asked of nodes and hooks is that they make no difference between the two arrangements
themselves. A node sees the workflow it belongs to, and could well look at the order of its nodes.
-/
import Conveyor.Proofs.Engine.Layout
import Conveyor.Proofs.Engine.Lockstep
import Conveyor.Proofs.Workflow.Arrangement

set_option autoImplicit false

namespace Conveyor

/-! ## The same but for the order of notes -/

/-- States that differ at most in the order of the notes on where items came from. -/
structure RunState.Matches (s s' : RunState) : Prop where
  startNode : s.startNode = s'.startNode
  tasks : s.tasks = s'.tasks
  lastNode : s.lastNode = s'.lastNode
  error : s.error = s'.error
  agenda : s.agenda.Matches s'.agenda
  waitTill : s.waitTill = s'.waitTill

/-- Runs whose states match, and which are the same in all else. -/
structure Run.Matches (r r' : Run) : Prop where
  id : r.id = r'.id
  workflowId : r.workflowId = r'.workflowId
  mode : r.mode = r'.mode
  status : r.status = r'.status
  finished : r.finished = r'.finished
  startedAt : r.startedAt = r'.startedAt
  stoppedAt : r.stoppedAt = r'.stoppedAt
  waitTill : r.waitTill = r'.waitTill
  needsDelete : r.needsDelete = r'.needsDelete
  state : r.state.Matches r'.state

/-- Passes whose states match, and which are the same in all else. -/
structure Pass.Matches (p q : Pass) : Prop where
  state : p.state.Matches q.state
  nextIndex : p.nextIndex = q.nextIndex
  left : p.left = q.left
  canceled : p.canceled = q.canceled
  log : p.log = q.log

theorem RunState.Matches.refl (s : RunState) : s.Matches s :=
  ⟨rfl, rfl, rfl, rfl, ⟨rfl, rfl, fun _ => rfl⟩, rfl⟩

/-- The same is asked for. -/
inductive Request.Matches : Request → Request → Prop
  | start {id : String} {mode : RunMode} {startNode : Option String} {items : Option Items} :
      Matches (.start id mode startNode items) (.start id mode startNode items)
  | rerun {id : String} {mode : RunMode} {startNode : String} {prior : RunData} :
      Matches (.rerun id mode startNode prior) (.rerun id mode startNode prior)
  | resume {run run' : Run} (runs : run.Matches run') : Matches (.resume run) (.resume run')

/-- Two passes end alike. -/
inductive Engine.Ending.Matches : Engine.Ending → Engine.Ending → Prop
  | run {r r' : Run} {log : HookLog} (runs : r.Matches r') : Matches (.run r log) (.run r' log)
  | broken {message : String} : Matches (.broken message) (.broken message)
  | lingering : Matches .lingering .lingering

/-! ## Nodes and hooks that make no difference -/

/-- A hook that does the same for two workflows. -/
structure Hook.Impartial (w w' : Workflow) (k : Hook) : Prop where
  runStarts : ∀ {s s' : RunState}, s.Matches s' → (k.runStarts w s).2.Matches (k.runStarts w' s').2
  nodeStarts : ∀ node {s s' : RunState}, s.Matches s' →
    (k.nodeStarts node s).2.Matches (k.nodeStarts node s').2
  nodeEnds : ∀ node t {s s' : RunState}, s.Matches s' →
    (k.nodeEnds node t s).2.Matches (k.nodeEnds node t s').2
  runEnds : ∀ {r r' : Run}, r.Matches r' → (k.runEnds w r).2.Matches (k.runEnds w' r').2

namespace Engine

/-- An engine whose nodes and hooks do the same for two workflows. -/
structure Impartial (e : Engine) (w w' : Workflow) : Prop where
  nodes : ∀ type t, e.registry.get? type = some t → ∀ i : NodeInput,
    t.execute { i with view := { i.view with workflow := w } }
      = t.execute { i with view := { i.view with workflow := w' } }
  hooks : ∀ k ∈ e.hooks, k.Impartial w w'

variable {e : Engine} {g g' : Graph} {id : String} {mode : RunMode} {start : Time.Instant}
  {p q : Pass}

/-! ## In lockstep -/

theorem Impartial.attempt (impartial : e.Impartial g.workflow g'.workflow) {s s' : RunState}
    (same : s.Matches s') (n : Node) (en : Entry) :
    e.attempt ⟨g, id, mode, start⟩ s n en = e.attempt ⟨g', id, mode, start⟩ s' n en := by
  simp only [Engine.attempt]
  cases known : e.registry.get? n.type with
  | none => rfl
  | some t =>
    have executes := impartial.nodes n.type t known (e.input ⟨g, id, mode, start⟩ s n en)
    simp only [Engine.input, same.tasks] at executes ⊢
    exact executes

/-- Calling hooks at passes that match leaves passes that match. -/
theorem Impartial.callHooks {w w' : Workflow} (impartial : e.Impartial w w') (stage : Stage)
    (act : Hook → HookAction RunState)
    (each : ∀ k : Hook, k.Impartial w w' → ∀ {s s' : RunState}, s.Matches s' →
      (act k s).2.Matches (act k s').2) (same : p.Matches q) :
    (p.callHooks stage (e.hooks.map act)).Matches (q.callHooks stage (e.hooks.map act)) := by
  obtain ⟨log, state⟩ := callHooks_pair (R := RunState.Matches) stage
    (fun k hk => each k (impartial.hooks k hk)) 0 same.state
  refine ⟨state, same.nextIndex, same.left, same.canceled, ?_⟩
  simp only [Pass.callHooks, log, same.log]

theorem Impartial.record {w w' : Workflow} (impartial : e.Impartial w w')
    (same : p.Matches q) (n : Node) (t : Task) : (e.record p n t).Matches (e.record q n t) := by
  refine impartial.callHooks _ _ (fun _ hook => hook.nodeEnds n.name t) ?_
  have tasks : p.state.tasks.record n.name t = q.state.tasks.record n.name t := by
    rw [same.state.tasks]
  exact { same with
    state := { same.state with tasks := tasks, lastNode := rfl }
    nextIndex := congrArg (· + 1) same.nextIndex }

/-- **Runs of two arrangements go on in lockstep.** -/
theorem Impartial.lockstep (impartial : e.Impartial g.workflow g'.workflow)
    (re : g.workflow.Rearranged g'.workflow) :
    e.Lockstep ⟨g, id, mode, start⟩ ⟨g', id, mode, start⟩ Pass.Matches fun _ => True where
  canceled same := same.canceled
  left same := same.left
  stack same := same.state.agenda.stack
  cancel same := { same with canceled := rfl }
  spend same left := { same with left := rfl }
  pop same rest :=
    { same with state := { same.state with agenda := { same.state.agenda with stack := rfl } } }
  fail same message node := { same with state := { same.state with error := rfl } }
  pause same till := { same with state := { same.state with waitTill := rfl } }
  attempt same n _ en := impartial.attempt same.state n en
  nodeStarts same n _ := impartial.callHooks _ _ (fun _ hook => hook.nodeStarts n.name) same
  -- Tasks are numbered by what has been recorded so far, and that many have been recorded in both.
  record same n _ en settled := by
    have task : ∀ {p q : Pass}, p.Matches q → e.taskOf p en settled = e.taskOf q en settled :=
      fun same => by simp only [taskOf, same.nextIndex]
    rw [task same]
    exact impartial.record same n _
  -- The order of the nodes matters for the agenda only, which is completed with the same entries.
  complete same n _ output :=
    { same with
      state := { same.state with
        agenda := Graph.complete_rearranged re same.state.agenda n.name output } }

/-- Taking an entry keeps two arrangements together, whatever its node is. -/
theorem Impartial.takes (impartial : e.Impartial g.workflow g'.workflow)
    (re : g.workflow.Rearranged g'.workflow) (same : p.Matches q) (en : Entry) :
    Phase.Paired Pass.Matches (fun _ => True) (e.take ⟨g, id, mode, start⟩ p en)
    (e.take ⟨g', id, mode, start⟩ q en) :=
  (impartial.lockstep re).take same en (congrFun (Graph.node?_rearranged re) en.node) fun _ _ =>
    trivial

/-! ## Beginning and ending -/

/-- A run of another arrangement starts at the same nodes, or not at all for the same reason. -/
theorem startNodes_rearranged (re : g.workflow.Rearranged g'.workflow) (startNode : Option String) :
    e.startNodes g startNode = e.startNodes g' startNode := by
  cases startNode with
  | some name => simp only [startNodes, Graph.node?_rearranged re]
  | none =>
    have triggers : e.triggers g = e.triggers g' :=
      Graph.sortByPosition_rearranged re ((re.nodes.filter _).map Node.name)
    simp only [startNodes, triggers, re.id]

theorem Impartial.begin (impartial : e.Impartial g.workflow g'.workflow)
    (re : g.workflow.Rearranged g'.workflow) {s s' : RunState} (same : s.Matches s')
    (canceled : Bool) :
    Phase.Paired Pass.Matches (fun _ => True) (e.begin ⟨g, id, mode, start⟩ s canceled)
      (e.begin ⟨g', id, mode, start⟩ s' canceled) := by
  obtain ⟨log, state⟩ := callHooks_pair (R := RunState.Matches) (.runStarts g.workflow.id)
    (fun k hk => (impartial.hooks k hk).runStarts) 0 same
  -- The calls are noted under the id of the workflow, which is the same in every arrangement.
  simp only [Engine.begin, ← re.id]
  refine .ready ⟨state, ?_, rfl, rfl, log⟩
  simp only [state.tasks]

/-- Passes that match make runs that match. -/
theorem Impartial.finish (impartial : e.Impartial g.workflow g'.workflow)
    (re : g.workflow.Rearranged g'.workflow) (same : p.Matches q) (canceled : Bool) :
    Ending.Matches
      (.run (e.finish ⟨g, id, mode, start⟩ p canceled).1
        (e.finish ⟨g, id, mode, start⟩ p canceled).2)
      (.run (e.finish ⟨g', id, mode, start⟩ q canceled).1
        (e.finish ⟨g', id, mode, start⟩ q canceled).2) := by
  have made : (e.runOf ⟨g, id, mode, start⟩ p.state canceled).Matches
      (e.runOf ⟨g', id, mode, start⟩ q.state canceled) := by
    have s := same.state
    refine ⟨rfl, re.id, rfl, ?_, ?_, rfl, rfl, s.waitTill, ?_, s⟩
    · simp only [runOf, s.error, s.waitTill]
    · simp only [runOf, s.error, s.waitTill]
    · simp only [runOf, s.error, s.waitTill, re.settings]
  obtain ⟨log, run⟩ :=
    callHooks_pair (R := Run.Matches)
      (.runEnds (e.runOf ⟨g, id, mode, start⟩ p.state canceled).status)
      (fun k hk => (impartial.hooks k hk).runEnds) 0 made
  simp only [Engine.finish, ← made.status, log, same.log]
  exact .run run

theorem Impartial.ending (impartial : e.Impartial g.workflow g'.workflow)
    (re : g.workflow.Rearranged g'.workflow) {φ ψ : Phase}
    (paired : Phase.Paired Pass.Matches (fun _ => True) φ ψ) :
    Ending.Matches (e.ending ⟨g, id, mode, start⟩ φ) (e.ending ⟨g', id, mode, start⟩ ψ) := by
  have lock : e.Lockstep ⟨g, id, mode, start⟩ ⟨g', id, mode, start⟩ Pass.Matches fun _ => True :=
    impartial.lockstep re
  have ended := lock.advance (impartial.takes re) paired
  simp only [Engine.ending]
  generalize e.advance ⟨g, id, mode, start⟩ φ = φ' at ended ⊢
  generalize e.advance ⟨g', id, mode, start⟩ ψ = ψ' at ended ⊢
  cases ended with
  | ready => exact .lingering
  | lingering => exact .lingering
  | stopped same => exact impartial.finish re same _
  | broken => exact .broken

/-- What is asked for is checked in the same way, and runs begin with states that match. -/
theorem prepare_rearranged (re : g.workflow.Rearranged g'.workflow) {r r' : Request}
    (same : r.Matches r') :
    Answers (fun a b => ∃ id mode start, a.1 = ⟨g, id, mode, start⟩ ∧ b.1 = ⟨g', id, mode, start⟩ ∧
      a.2.Matches b.2)
      (e.prepare g.workflow r) (e.prepare g'.workflow r') := by
  cases same with
  -- The starting nodes are looked up by name, so both find the same ones or fail for the same
  -- reason.
  | @start id mode startNode items =>
    simp only [prepare, graph_of_workflow, bind, Except.bind, startNodes_rearranged re]
    cases e.startNodes g' startNode with
    | error cause => exact .error
    | ok names => exact .ok ⟨id, mode, e.now, rfl, rfl, .refl _⟩
  | @rerun id mode startNode prior =>
    simp only [prepare, graph_of_workflow, bind, Except.bind, startNodes_rearranged re]
    cases e.startNodes g' (some startNode) with
    | error cause => exact .error
    | ok names =>
      refine .ok ⟨id, mode, e.now, rfl, rfl, ?_⟩
      rw [RunState.repeating, Graph.rebuild_rearranged re]
      exact .refl _
  -- A run is resumed if it waits, and runs that match do so together.
  | @resume run run' runs =>
    simp only [prepare, graph_of_workflow, bind, Except.bind, ← runs.status, ← runs.id, ← runs.mode,
      ← runs.startedAt]
    split
    · exact .ok ⟨run.id, run.mode, run.startedAt, rfl, rfl, { runs.state with waitTill := rfl }⟩
    · exact .error

/-- **How a workflow is written down makes no difference.** Let a workflow that has a graph be
written down with its nodes in another order, the targets of each output port in another order, and
its connections by source and type in another order, and let no node and no hook look at these
orders. Then the other one has a graph as well, and what is asked for, be it a run from the start, a
run from a node on, or the rest of a paused run, is answered alike: with the same error, or with a
run that takes the same entries one after the other and ends in the same state. -/
theorem answers_rearranged {w w' : Workflow} (graph : w.graph = .ok g) (re : w.Rearranged w')
    (impartial : e.Impartial w w') {r r' : Request} (same : r.Matches r') (canceled : Bool) :
    (∃ g', w'.graph = .ok g') ∧ e.takes w r canceled = e.takes w' r' canceled ∧
      Answers Ending.Matches (e.perform w r canceled) (e.perform w' r' canceled) := by
  obtain rfl := workflow_of_graph graph
  obtain ⟨g', rfl⟩ := re.graph
  refine ⟨⟨g', graph_of_workflow g'⟩, Answers.perform ?_⟩
  -- Either both requests are refused for the same reason, or both begin with states that match.
  have prepared := prepare_rearranged (e := e) re same
  generalize e.prepare g.workflow r = a at prepared ⊢
  generalize e.prepare g'.workflow r' = b at prepared ⊢
  cases prepared with
  | error => exact .error
  | ok begun =>
    obtain ⟨id, mode, start, hx, hy, state⟩ := begun
    refine .ok ?_
    rw [hx, hy]
    have begins : Phase.Paired Pass.Matches (fun _ => True)
        (e.begin ⟨g, id, mode, start⟩ _ canceled)
        (e.begin ⟨g', id, mode, start⟩ _ canceled) := impartial.begin re state canceled
    exact ⟨(impartial.lockstep re).history (impartial.takes re) begins, impartial.ending re begins⟩

end Engine

/-! ## The fork, written down the other way round -/

namespace Fork

/-- The fork with its nodes from the last to the first, and so its connections and the targets of
Start. -/
def turned : Workflow :=
  { workflow 0 upper lower with
    nodes := (workflow 0 upper lower).nodes.reverse
    connections :=
      [("B", [("main", [[⟨"J", 1⟩]])]), ("A", [("main", [[⟨"J", 0⟩]])]),
        ("Start", [("main", [[⟨"B", 0⟩, ⟨"A", 0⟩]])])] }

theorem rearranged : (workflow 0 upper lower).Rearranged turned := by
  have ports : ∀ {ps ps' : Ports}, ps.Rearranged ps' →
      Named.Rearranged Ports.Rearranged [("main", ps)] [("main", ps')] := fun {_ ps'} re =>
    ⟨List.nodup_singleton _, [("main", ps')], .cons ⟨rfl, re⟩ .nil, .refl _⟩
  have same : ∀ t : Target, Ports.Rearranged [[t]] [[t]] := fun t => .cons (.refl [t]) .nil
  refine ⟨rfl, rfl, (List.reverse_perm _).symm, ⟨by decide, turned.connections.reverse, ?_,
    List.reverse_perm _⟩, rfl, rfl⟩
  exact .cons ⟨rfl, ports (.cons (.swap _ _ []) .nil)⟩
    (.cons ⟨rfl, ports (same _)⟩ (.cons ⟨rfl, ports (same _)⟩ .nil))

theorem impartial (w w' : Workflow) : engine.Impartial w w' := by
  refine ⟨fun type t known i => ?_, fun _ hook => absurd hook List.not_mem_nil⟩
  rcases registered known with rfl | rfl <;> rfl

/-- The fork is executed in the same way when it is written down the other way round. -/
theorem turned_answers : (∃ g', turned.graph = .ok g') ∧
    engine.takes (workflow 0 upper lower) request false = engine.takes turned request false ∧
    Engine.Answers Engine.Ending.Matches (engine.perform (workflow 0 upper lower) request false)
      (engine.perform turned request false) ∧
    (engine.takes turned request false).map Entry.node = ["Start", "A", "B", "J"] := by
  have known : (workflow 0 upper lower).graph = .ok graph := rfl
  obtain ⟨there, takes, answers⟩ :=
    Engine.answers_rearranged known rearranged (impartial _ _) .start false
  exact ⟨there, takes, answers, by decide⟩

end Fork

end Conveyor
