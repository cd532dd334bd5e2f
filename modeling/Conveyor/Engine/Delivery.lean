/-
Delivering the output of a node to the nodes behind it.

A node with at most one connection that arrives at it is ready as soon as items are delivered to it.
A node with several waits until all of its sources have completed; then it gets the most recent
output of each. The ready nodes are put on top of the stack in the order of their positions, so that
each branch of a workflow is followed to its end before the next one is begun.
-/
import Conveyor.Run.State
import Conveyor.Workflow.Graph

set_option autoImplicit false

namespace Conveyor

/-- A connection as the source of items. -/
def Inbound.toSource (l : Inbound) : Source := ⟨l.source, l.output, l.input⟩

/-- How many input ports some connections need. -/
def portCount (links : List Inbound) : Nat := (links.map (·.input + 1)).foldl max 0

/-- A node with the items that connections bring to its input ports, in the order of the
connections. -/
def Entry.gather (node : String) (links : List Inbound) (itemsOf : Inbound → Items) : Entry where
  node := node
  inputs := (List.range (portCount links)).map fun port =>
    (links.filter (·.input == port)).flatMap itemsOf
  sources := links.map Inbound.toSource

namespace Agenda

/-- The most recent items on an output port of a node. -/
def outputOf (a : Agenda) (node : String) (port : Nat) : Items :=
  ((a.outputs.get? node).getD []).getD port []

/-- A node with several sources, if all of them have completed (`join`). -/
def join? (a : Agenda) (node : String) (links : List Inbound) : Option Entry :=
  if links.all fun l => a.outputs.contains l.source then
    some (Entry.gather node links fun l => a.outputOf l.source l.output)
  else none

end Agenda

/-- Items that are delivered from an output port to a target. -/
structure Delivery where
  output : Nat
  items : Items
  target : Target

/-- The deliveries from the ports of a node, the first of them having a number; ports without items
deliver nothing. -/
def deliveries (output : Nat) : Ports → List Items → List Delivery
  | targets :: ports, items :: rest =>
    (if items.isEmpty then [] else targets.map (Delivery.mk output items)) ++
      deliveries (output + 1) ports rest
  | _, _ => []

namespace Graph

/-- The nodes that deliveries make ready. A node with several sources is looked at once; `seen` are
those that were. -/
def readyNodes (g : Graph) (a : Agenda) (source : String) (seen : List String) :
    List Delivery → List Entry
  | [] => []
  | d :: ds =>
    let node := d.target.node
    let links := g.inbound node
    if links.length ≤ 1 then
      Entry.single node d.target.index d.items [⟨source, d.output, d.target.index⟩] ::
        readyNodes g a source seen ds
    else if node ∈ seen then readyNodes g a source seen ds
    else (a.join? node links).toList ++ readyNodes g a source (node :: seen) ds

/-- Entries in the order of their nodes' positions. -/
def sortEntries (g : Graph) (entries : List Entry) : List Entry :=
  sortBy (fun a b => (g.comparePosition a.node b.node).isLE) entries

/-- Delivers the output of a node (`propagate`). -/
def deliver (g : Graph) (a : Agenda) (source : String) (output : List Items) : Agenda :=
  let ready := g.readyNodes a source []
    (deliveries 0 (g.workflow.connections.outputs source) output)
  { a with
    stack := g.sortEntries ready ++ a.stack
    arrivals := ready.foldl (fun m e => m.insert e.node e.sources) a.arrivals }

/-- Keeps the output of a node that has completed, and delivers it. -/
def complete (g : Graph) (a : Agenda) (node : String) (output : List Items) : Agenda :=
  g.deliver { a with outputs := a.outputs.insert node output } node output

/-- A node with the last outputs of its sources; sources that have not run are left out
(`parent_input`). Without any, it gets one empty item. -/
def rebuild (g : Graph) (tasks : RunData) (node : String) : Entry :=
  let links := (g.inbound node).filter fun l => (tasks.lastTask? l.source).isSome
  if links.isEmpty then Entry.single node 0 [{}] []
  else Entry.gather node links fun l =>
    ((tasks.lastTask? l.source).map (·.port l.output)).getD []

end Graph

end Conveyor
