/-
Workflows that are written down in different orders.

The same workflow can be written down in many ways: its nodes in another order, the targets of each
output port in another order, the connections by source and by type in another order. None of this
is told apart by a graph. It looks its nodes up by name, sorts what arrives at a node by port and
source, and sorts nodes by their places, which no two nodes share since their names settle what
their coordinates leave open. So all that the engine asks a graph for is the same for two
arrangements (`node?_rearranged`, `inbound_rearranged`, `pushes_rearranged`).

The order in which targets are written down does get into one thing. A completion notes for each
node that it pushes where its items came from, target by target, and a note is added at the end if
there is none for that node yet. As a table by name these notes are the same
(`arrivals_rearranged`).
-/
import Conveyor.Proofs.Engine.Delivery
import Mathlib.Data.List.Forall2

set_option autoImplicit false

namespace Conveyor

/-! ## Tables in another order -/

namespace Named

variable {α : Type} {R : α → α → Prop} {m m' : Named α}

/-- Two tables with the same names, each of them once, in any order; a relation holds between the
values. -/
def Rearranged (R : α → α → Prop) (m m' : Named α) : Prop :=
  m.names.Nodup ∧ ∃ k : Named α, List.Forall₂ (fun p q => p.1 = q.1 ∧ R p.2 q.2) m k ∧ k.Perm m'

/-- Looking up a name does not depend on the order of a table without repetitions. -/
theorem get?_perm (perm : m.Perm m') (nodup : m.names.Nodup) (name : String) :
    get? m name = get? m' name := by
  induction perm with
  | nil => rfl
  | cons p _ ih =>
    obtain ⟨k, v⟩ := p
    rw [get?_cons, get?_cons, ih (List.nodup_cons.1 nodup).2]
  | swap p q rest =>
    obtain ⟨k, v⟩ := p
    obtain ⟨k', v'⟩ := q
    have differ : k' ≠ k := fun same =>
      (List.nodup_cons.1 nodup).1 (List.mem_cons.2 (.inl same))
    simp only [get?_cons, beq_iff_eq]
    by_cases first : name = k
    · rw [if_pos first, if_pos first, if_neg fun second => differ (second.symm.trans first)]
    · rw [if_neg first, if_neg first]
  | trans first _ ih ih' => exact (ih nodup).trans (ih' ((first.map Prod.fst).nodup_iff.1 nodup))

/-- A name has a value in both tables or in none, and the relation holds between the two values. -/
theorem Rearranged.get? (re : Rearranged R m m') (name : String) :
    Option.Rel R (m.get? name) (m'.get? name) := by
  obtain ⟨nodup, k, values, perm⟩ := re
  have found : k.names = m.names ∧ Option.Rel R (m.get? name) (k.get? name) := by
    clear perm
    induction values with
    | nil => exact ⟨rfl, .none⟩
    | @cons p q m k same _ ih =>
      obtain ⟨a, v⟩ := p
      obtain ⟨b, v'⟩ := q
      obtain ⟨rfl, related⟩ : a = b ∧ R v v' := same
      obtain ⟨names, rest⟩ := ih (List.nodup_cons.1 nodup).2
      refine ⟨congrArg (a :: ·) names, ?_⟩
      rw [get?_cons, get?_cons]
      split
      · exact .some related
      · exact rest
  rw [← get?_perm perm (found.1 ▸ nodup)]
  exact found.2

end Named

/-! ## Connections in another order -/

/-- Ports whose targets are written down in another order. -/
def Ports.Rearranged : Ports → Ports → Prop := List.Forall₂ List.Perm

/-- Connections whose sources, types and targets are written down in another order. -/
def Connections.Rearranged : Connections → Connections → Prop :=
  Named.Rearranged (Named.Rearranged Ports.Rearranged)

namespace Ports

variable {ps ps' : Ports}

theorem Rearranged.getD {found found' : Option Ports} (re : Option.Rel Rearranged found found') :
    Rearranged (found.getD []) (found'.getD []) := by
  cases re with
  | none => exact .nil
  | some re => exact re

theorem Rearranged.edgesFrom (re : Rearranged ps ps') (source : String) (k : Nat) :
    (Connections.edgesFrom source k ps).Perm (Connections.edgesFrom source k ps') := by
  induction re generalizing k with
  | nil => exact .refl _
  | cons targets _ ih => exact (targets.map _).append (ih (k + 1))

theorem Rearranged.deliveries (re : Rearranged ps ps') (k : Nat) (output : List Items) :
    (Conveyor.deliveries k ps output).Perm (Conveyor.deliveries k ps' output) := by
  induction re generalizing k output with
  | nil => exact .refl _
  | cons targets _ ih =>
    cases output with
    | nil => exact .refl _
    | cons items rest =>
      simp only [Conveyor.deliveries]
      refine List.Perm.append ?_ (ih (k + 1) rest)
      split
      · exact .refl _
      · exact targets.map _

end Ports

namespace Connections

variable {c c' : Connections}

theorem Rearranged.outputs (re : Rearranged c c') (source : String) :
    Ports.Rearranged (c.outputs source) (c'.outputs source) := by
  have found := Named.Rearranged.get? re source
  simp only [Connections.outputs]
  generalize c.get? source = types at found ⊢
  generalize c'.get? source = types' at found ⊢
  cases found with
  | none => exact .nil
  | some re => exact .getD (Named.Rearranged.get? re mainType)

theorem Rearranged.edges (re : Rearranged c c') : c.edges.Perm c'.edges := by
  obtain ⟨-, k, sources, perm⟩ := re
  refine List.Perm.trans ?_ (perm.flatMap_right _)
  clear perm
  induction sources with
  | nil => exact .refl _
  | @cons p q c k same _ ih =>
    obtain ⟨a, types⟩ := p
    obtain ⟨b, types'⟩ := q
    obtain ⟨rfl, re⟩ : a = b ∧ Named.Rearranged Ports.Rearranged types types' := same
    have ports := Ports.Rearranged.getD (Named.Rearranged.get? re mainType)
    exact (ports.edgesFrom a 0).append ih

end Connections

/-! ## Workflows in another order -/

/-- Workflows that are written down in different orders. -/
structure Workflow.Rearranged (w w' : Workflow) : Prop where
  id : w.id = w'.id
  name : w.name = w'.name
  nodes : w.nodes.Perm w'.nodes
  connections : w.connections.Rearranged w'.connections
  settings : w.settings = w'.settings
  staticData : w.staticData = w'.staticData

namespace Graph

/-! ## The order on the canvas

It is a total order of all names, and of different names none stands beside another. -/

/-- The coordinates of a name; names without a node have none and come last. -/
def place (g : Graph) (name : String) : Nat × Int × Int :=
  match g.node? name with
  | some n => (0, rank n.position.y, rank n.position.x)
  | none => (1, 0, 0)

theorem comparePosition_eq (g : Graph) : g.comparePosition
    = compareLex (compareOn fun name => (g.place name).1)
        (compareLex (compareOn fun name => (g.place name).2.1)
          (compareLex (compareOn fun name => (g.place name).2.2) (compareOn id))) := by
  funext a b
  simp only [compareLex, compareOn, comparePosition, place]
  cases ha : g.node? a with
  | none =>
    cases hb : g.node? b with
    | none => simp only [Std.ReflCmp.compare_self, Ordering.then, id_eq]
    | some m => rfl
  | some n =>
    cases hb : g.node? b with
    | none => rfl
    | some m =>
      simp only [compareNodes, name_of_node? ha, name_of_node? hb, Std.ReflCmp.compare_self,
        Ordering.then, id_eq]

instance (g : Graph) : Std.TransCmp g.comparePosition := by
  rw [comparePosition_eq]
  infer_instance

theorem eq_of_comparePosition {g : Graph} {a b : String} (same : g.comparePosition a b = .eq) :
    a = b := by
  rw [comparePosition_eq] at same
  simp only [compareLex, compareOn, Ordering.then_eq_eq, id_eq] at same
  exact Std.LawfulEqCmp.eq_of_compare same.2.2.2

end Graph

/-! ## What a graph tells -/

/-- An arrangement of a workflow that has a graph has one as well. -/
theorem Workflow.Rearranged.graph {g : Graph} {w : Workflow} (re : g.workflow.Rearranged w) :
    ∃ g' : Graph, g'.workflow = w := by
  have names : g.workflow.nodeNames.Perm w.nodeNames := re.nodes.map Node.name
  refine ⟨.of w (names.nodup_iff.1 g.names_nodup) fun edge hedge => ?_, rfl⟩
  obtain ⟨source, target⟩ := g.ends_known edge (re.connections.edges.mem_iff.2 hedge)
  exact ⟨names.mem_iff.1 source, names.mem_iff.1 target⟩

namespace Graph

theorem node?_eq_some_iff {g : Graph} {name : String} {n : Node} :
    g.node? name = some n ↔ n ∈ g.workflow.nodes ∧ n.name = name := by
  constructor
  · exact fun node => ⟨mem_of_node? node, name_of_node? node⟩
  · rintro ⟨hn, rfl⟩
    obtain ⟨m, node⟩ := Option.isSome_iff_exists.1 (node?_isSome_iff.2 (List.mem_map_of_mem hn))
    rw [node, List.inj_on_of_nodup_map g.names_nodup (mem_of_node? node) hn (name_of_node? node)]

variable {g g' : Graph} (re : g.workflow.Rearranged g'.workflow)
include re

theorem node?_rearranged : g.node? = g'.node? := by
  funext name
  refine Option.ext fun n => ?_
  rw [node?_eq_some_iff, node?_eq_some_iff, re.nodes.mem_iff]

theorem comparePosition_rearranged : g.comparePosition = g'.comparePosition := by
  funext a b
  simp only [comparePosition, node?_rearranged re]

theorem inbound_rearranged : g.inbound = g'.inbound := inbound_congr re.connections.edges

theorem sortByPosition_rearranged {names names' : List String} (perm : names.Perm names') :
    g.sortByPosition names = g'.sortByPosition names' := by
  rw [sortByPosition, sortByPosition, ← comparePosition_rearranged re]
  exact sortBy_key_eq_of_perm g.comparePosition id (fun _ _ _ _ => eq_of_comparePosition) perm

theorem rebuild_rearranged : g.rebuild = g'.rebuild := by
  funext tasks node
  simp only [rebuild, inbound_rearranged re]

theorem deliveriesOf_rearranged (source : String) (output : List Items) :
    (g.deliveriesOf source output).Perm (g'.deliveriesOf source output) :=
  (re.connections.outputs source).deliveries 0 output

theorem feeds_rearranged {source node : String} {output : List Items} :
    g.Feeds source output node ↔ g'.Feeds source output node := by
  simp only [Feeds, (deliveriesOf_rearranged re source output).mem_iff]

/-- A completion makes the same nodes ready, in some order. -/
theorem readyNodes_rearranged {a a' : Agenda} (same : a.outputs = a'.outputs) (source : String)
    (output : List Items) :
    (g.readyNodes { a with outputs := a.outputs.insert source output } source []
      (g.deliveriesOf source output)).Perm
    (g'.readyNodes { a' with outputs := a'.outputs.insert source output } source []
      (g'.deliveriesOf source output)) := by
  -- A completion pushes each node once, so it is enough that it pushes the same entries.
  have members : ∀ en, en ∈ g.pushes a source output ↔ en ∈ g'.pushes a' source output := by
    intro en
    simp only [mem_pushes, complete_outputs, Agenda.outputOf, feeds_rearranged re,
      inbound_rearranged re, same]
  have perm : (g.pushes a source output).Perm (g'.pushes a' source output) :=
    (List.perm_ext_iff_of_nodup (g.nodup_pushes a source output).of_map
      (g'.nodup_pushes a' source output).of_map).2 members
  exact ((sortBy_perm _ _).symm.trans perm).trans (sortBy_perm _ _)

/-- Sorting leaves no trace of the order in which they were found. -/
theorem pushes_rearranged {a a' : Agenda} (same : a.outputs = a'.outputs) (source : String)
    (output : List Items) : g.pushes a source output = g'.pushes a' source output := by
  have once := ((sortBy_perm _ _).map Entry.node).nodup_iff.1 (g.nodup_pushes a source output)
  rw [pushes, pushes, sortEntries, sortEntries, ← comparePosition_rearranged re]
  refine sortBy_key_eq_of_perm g.comparePosition Entry.node (fun en hen en' hen' alike => ?_)
    (readyNodes_rearranged re same source output)
  exact List.inj_on_of_nodup_map once hen hen' (eq_of_comparePosition alike)

end Graph

/-! ## Where items came from -/

/-- Noting the same in the same order in tables that are alike leaves tables that are alike. -/
theorem foldl_arrivals_congr (entries : List Entry) {m m' : Named (List Source)}
    (same : ∀ name, m.get? name = m'.get? name) (name : String) :
    (entries.foldl (fun m e => m.insert e.node e.sources) m).get? name
      = (entries.foldl (fun m e => m.insert e.node e.sources) m').get? name := by
  induction entries generalizing m m' with
  | nil => exact same name
  | cons en entries ih =>
    refine ih fun other => ?_
    rw [Named.get?_insert, Named.get?_insert, same]

/-- Noting where the items of different nodes came from can be done in any order. -/
theorem foldl_arrivals_perm {entries entries' : List Entry} (perm : entries.Perm entries')
    (once : (entries.map Entry.node).Nodup) {m m' : Named (List Source)}
    (same : ∀ name, m.get? name = m'.get? name) (name : String) :
    (entries.foldl (fun m e => m.insert e.node e.sources) m).get? name
      = (entries'.foldl (fun m e => m.insert e.node e.sources) m').get? name := by
  induction perm generalizing m m' with
  | nil => exact same name
  | cons en _ ih =>
    refine ih (List.nodup_cons.1 once).2 fun other => ?_
    rw [Named.get?_insert, Named.get?_insert, same]
  -- Notes under different names do not get in each other's way.
  | swap en en' rest =>
    have differ : en'.node ≠ en.node := fun same =>
      (List.nodup_cons.1 once).1 (List.mem_cons.2 (.inl same))
    refine foldl_arrivals_congr rest (fun other => ?_) name
    simp only [Named.get?_insert, same]
    by_cases first : other = en.node
    · rw [if_pos first, if_pos first, if_neg fun second => differ (second.symm.trans first)]
    · rw [if_neg first, if_neg first]
  | trans first _ ih ih' =>
    exact (ih once fun _ => rfl).trans (ih' ((first.map Entry.node).nodup_iff.1 once) same)

/-- Agendas with the same stack, the same outputs, and the same notes on where items came from, in
any order. -/
structure Agenda.Matches (a a' : Agenda) : Prop where
  stack : a.stack = a'.stack
  outputs : a.outputs = a'.outputs
  arrivals : ∀ name, a.arrivals.get? name = a'.arrivals.get? name

/-- **A completion does the same in every arrangement.** -/
theorem Graph.complete_rearranged {g g' : Graph} (re : g.workflow.Rearranged g'.workflow)
    {a a' : Agenda} (same : a.Matches a') (node : String) (output : List Items) :
    (g.complete a node output).Matches (g'.complete a' node output) where
  stack := by rw [complete_stack, complete_stack, pushes_rearranged re same.outputs, same.stack]
  outputs := by rw [complete_outputs, complete_outputs, same.outputs]
  arrivals := foldl_arrivals_perm (readyNodes_rearranged re same.outputs node output)
    (((sortBy_perm _ _).map Entry.node).nodup_iff.1 (g.nodup_pushes a node output)) same.arrivals

end Conveyor
