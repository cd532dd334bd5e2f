/-
The graph of a workflow.

A workflow is indexed once: its nodes get numbers, and its connections become links between numbers.
It has a graph if this succeeds, that is, if its nodes have distinct names and its connections lead
from nodes to nodes. The graph tells what arrives at a node, port by port, and which of two nodes
lies further to the top and left on the canvas; both are the same however the workflow was written
down.
-/
import Conveyor.Workflow.Basic

set_option autoImplicit false

namespace Conveyor

/-- Why a workflow has no graph. -/
inductive GraphError where
  | duplicateName (workflow name : String)
  | unknownNode (name : String)
  deriving DecidableEq

/-- The text of a graph error. -/
def GraphError.message : GraphError → String
  | duplicateName workflow name =>
    "Workflow '" ++ workflow ++ "' contains duplicate node name: " ++ name
  | unknownNode name => "Connection references unknown node: " ++ name

/-! ## Numbered nodes and links -/

/-- A connection by the numbers of its ends, with the ports it leads from and to. -/
structure Link where
  source : Nat
  target : Nat
  output : Nat
  input : Nat
  deriving DecidableEq

/-- A directed graph, in which nodes are known by their numbers (`DiGraph`). -/
structure Network where
  /-- What the nodes stand for: positions in the list of a workflow's nodes. -/
  weights : List Nat := []
  /-- The links, the one that was added last in front. -/
  links : List Link := []

namespace Network

/-- Adds a node, whose number is that of the nodes before it (`add_node`). -/
def addNode (n : Network) (weight : Nat) : Nat × Network :=
  (n.weights.length, { n with weights := n.weights ++ [weight] })

/-- Adds a link (`add_edge`). -/
def addLink (n : Network) (l : Link) : Network := { n with links := l :: n.links }

/-- The links that lead to a node, the one that was added last in front (`edges_directed`). -/
def incoming (n : Network) (number : Nat) : List Link := n.links.filter (·.target == number)

end Network

/-- The nodes and connections of a workflow by number, and the numbers of the nodes by name
(`WorkflowGraph`). -/
structure Wiring where
  network : Network := {}
  numbers : Named Nat := []

namespace Wiring

/-- Adds the nodes of a workflow from a position on, as the first loop of `WorkflowGraph::build`
does; a name that has a number already is refused. -/
def addNodes (workflow : String) : Wiring → Nat → List Node → Except GraphError Wiring
  | w, _, [] => .ok w
  | w, position, n :: ns =>
    let (number, network) := w.network.addNode position
    if w.numbers.contains n.name then .error (.duplicateName workflow n.name)
    else addNodes workflow ⟨network, w.numbers.insert n.name number⟩ (position + 1) ns

/-- The number of a node that a connection names. -/
def number (w : Wiring) (name : String) : Except GraphError Nat :=
  match w.numbers.get? name with
  | some number => .ok number
  | none => .error (.unknownNode name)

/-- Adds connections as links, each of them after its ends have been looked up, the source first. -/
def addEdges : Wiring → List Edge → Except GraphError Wiring
  | w, [] => .ok w
  | w, e :: es => do
    let source ← w.number e.source
    let target ← w.number e.target.node
    addEdges { w with network := w.network.addLink ⟨source, target, e.output, e.target.index⟩ } es

/-- The nodes and connections of a workflow by number: first all nodes, then all connections
(`WorkflowGraph::build`). -/
def index (w : Workflow) : Except GraphError Wiring := do
  let nodes ← addNodes w.id {} 0 w.nodes
  nodes.addEdges w.connections.edges

end Wiring

/-- A workflow with its nodes and connections by number (`WorkflowGraph`). -/
structure Graph extends Wiring where
  workflow : Workflow
  indexed : Wiring.index workflow = .ok toWiring

/-- A connection as its target sees it. -/
structure Inbound where
  source : String
  output : Nat
  input : Nat
  deriving DecidableEq

namespace Graph

/-- The graph of a workflow (`WorkflowGraph::build`). -/
def build (w : Workflow) : Except GraphError Graph :=
  match indexed : Wiring.index w with
  | .error err => .error err
  | .ok wiring => .ok ⟨wiring, w, indexed⟩

/-! ## Nodes and connections -/

/-- The node of a number. -/
def nodeAt? (g : Graph) (number : Nat) : Option Node := do
  let position ← g.network.weights[number]?
  g.workflow.nodes[position]?

/-- The node of a name (`WorkflowGraph::node`). -/
def node? (g : Graph) (name : String) : Option Node := do
  let number ← g.numbers.get? name
  g.nodeAt? number

/-- The connections that arrive at a node, in no particular order. -/
def arriving (g : Graph) (name : String) : List Inbound :=
  match g.numbers.get? name with
  | none => []
  | some number => (g.network.incoming number).filterMap fun l => do
    let source ← g.nodeAt? l.source
    return ⟨source.name, l.output, l.input⟩

/-- Order by input port, then source, then output port. -/
def Inbound.le (a b : Inbound) : Bool :=
  ((compare a.input b.input).then
    ((compare a.source b.source).then (compare a.output b.output))).isLE

/-- The connections that arrive at a node, by input port, source and output port
(`WorkflowGraph::inbound`). -/
def inbound (g : Graph) (name : String) : List Inbound := sortBy Inbound.le (g.arriving name)

/-- Whether a node has no link that leads to it (`WorkflowGraph::is_root`). -/
def isRoot (g : Graph) (name : String) : Bool :=
  match g.numbers.get? name with
  | none => false
  | some number => (g.network.incoming number).isEmpty

/-! ## Order on the canvas -/

/-- The rank of a float in the order of all floats, where zero has two signs. -/
def rank (bits : UInt64) : Int :=
  if bits.toNat < 2 ^ (63 : Nat) then bits.toNat
  else -((bits.toNat - 2 ^ (63 : Nat) : Nat) : Int) - 1

/-- Order of nodes: from top to bottom, then from left to right, then by name (`compare_nodes`). -/
def compareNodes (a b : Node) : Ordering :=
  (compare (rank a.position.y) (rank b.position.y)).then
    ((compare (rank a.position.x) (rank b.position.x)).then (compare a.name b.name))

/-- Order of names by the positions of their nodes; names without a node come last
(`WorkflowGraph::compare_position`). -/
def comparePosition (g : Graph) (a b : String) : Ordering :=
  match g.node? a, g.node? b with
  | some l, some r => compareNodes l r
  | some _, none => .lt
  | none, some _ => .gt
  | none, none => compare a b

/-- Names in the order of positions (`WorkflowGraph::sort_by_position`). -/
def sortByPosition (g : Graph) (names : List String) : List String :=
  sortBy (fun a b => (g.comparePosition a b).isLE) names

end Graph

end Conveyor
