/-
The two views of connections.

A node that completes pushes along the output ports of its source: nested lists, by name, by type,
by port. A node that waits for its sources looks at what arrives at it: the links of an index, from
number to number, with their numbers read back as names, and sorted. The index is made once, by
adding nodes and connections one after the other, and this file says that the two agree, connection
by connection and with multiplicity. What links them is the list of all connections (`edges`): by
source and port it is the first view (`count_edges`), and what was indexed of it comes back by
target as the second (`count_inbound`).

The first view is kept by the calls that make connections (`outputs_connect`, `edges_connect`), so
it holds exactly the connections that were made, in the order of the calls on every port. A table
has each source once; that is what the calls keep (`names_connect`) and what the second view needs,
since a source that stood there twice would be looked up once and listed twice.
-/
import Conveyor.Proofs.Engine.Delivery
import Conveyor.Proofs.Named
import Mathlib.Data.List.Count
import Mathlib.Data.String.Basic
import Mathlib.Order.Compare

set_option autoImplicit false

namespace Conveyor

namespace Named

variable {α : Type}

/-- What a name has among the entries of this name is what it has among all. -/
theorem get?_filter (m : Named α) (name : String) :
    get? (m.filter (·.1 == name)) name = m.get? name := by
  induction m with
  | nil => rfl
  | cons p m ih =>
    obtain ⟨k, v⟩ := p
    rw [List.filter_cons, get?_cons]
    split
    · rename_i same
      obtain rfl := beq_iff_eq.1 same
      rw [get?_cons, ih]
    · rename_i other
      rw [ih, if_neg fun same => other (beq_iff_eq.2 (beq_iff_eq.1 same).symm)]

end Named

/-! ## Making connections -/

namespace Ports

/-- A port has its targets and, if the connection leaves it, the new one behind them. -/
theorem targets_connect (ps : Ports) (output port : Nat) (t : Target) :
    (ps.connect output t).targets port = ps.targets port ++ if port = output then [t] else [] := by
  -- The induction follows the ports up to the one that is connected; those in front of it are
  -- filled in as empty.
  induction ps, output, t using Ports.connect.induct generalizing port with
  | case1 t => cases port <;> rfl
  | case2 n t ih =>
    cases port with
    | zero => rfl
    | succ port =>
      have rest := ih port
      simp only [targets, connect, List.getD_cons_succ, List.getD_nil, Nat.succ_inj] at rest ⊢
      exact rest
  | case3 t p ps =>
    cases port with
    | zero => rfl
    | succ port => exact (List.append_nil _).symm
  | case4 p ps n t ih =>
    cases port with
    | zero => exact (List.append_nil _).symm
    | succ port =>
      have rest := ih port
      simp only [targets, connect, List.getD_cons_succ, Nat.succ_inj] at rest ⊢
      exact rest

end Ports

namespace Connections

/-- One connection after another is made. -/
def connectAll (c : Connections) (calls : List Edge) : Connections :=
  calls.foldl (fun c e => c.connect e.source e.output e.target.node e.target.index) c

variable {c : Connections}

/-- The ports of a source change if the connection leaves it. -/
theorem outputs_connect (c : Connections) (e : Edge) (source : String) :
    (c.connect e.source e.output e.target.node e.target.index).outputs source =
      if source = e.source then (c.outputs source).connect e.output e.target
      else c.outputs source := by
  split
  · rename_i same
    subst same
    simp only [outputs, connect, Named.get?_update_self, Option.bind_some, Option.getD_some]
    cases c.get? e.source with
    | none => rfl
    | some types => rfl
  · rename_i other
    simp only [outputs, connect, Named.get?_update_of_ne other]

/-- A port has its targets and, if the connection leaves it, the new one behind them. -/
theorem targets_connect (c : Connections) (e : Edge) (source : String) (output : Nat) :
    ((c.connect e.source e.output e.target.node e.target.index).outputs source).targets output =
      (c.outputs source).targets output ++
        if e.source = source ∧ e.output = output then [e.target] else [] := by
  rw [outputs_connect]
  split
  · rename_i same
    rw [Ports.targets_connect]
    simp only [same, true_and, eq_comm]
  · rename_i other
    rw [if_neg fun both => other both.1.symm, List.append_nil]

theorem edgesFrom_connect (source : String) (first : Nat) (ps : Ports) (output : Nat) (t : Target) :
    (edgesFrom source first (ps.connect output t)).Perm
      (edgesFrom source first ps ++ [⟨source, first + output, t⟩]) := by
  induction ps, output, t using Ports.connect.induct generalizing first with
  | case1 t => exact .refl _
  | case2 n t ih =>
    have rest := ih (first + 1)
    rw [Nat.add_assoc, Nat.add_comm 1 n] at rest
    exact rest
  | case3 t p ps =>
    simp only [Ports.connect, edgesFrom, List.map_append, List.append_assoc]
    exact List.perm_append_comm.append_left _
  | case4 p ps n t ih =>
    have rest := ih (first + 1)
    rw [Nat.add_assoc, Nat.add_comm 1 n] at rest
    simp only [Ports.connect, edgesFrom, List.append_assoc]
    exact rest.append_left _

/-- Making a connection adds it to all that there are. -/
theorem edges_connect (c : Connections) (e : Edge) :
    (c.connect e.source e.output e.target.node e.target.index).edges.Perm (c.edges ++ [e]) := by
  -- Among the ports of one source that is known already, up to their order.
  have added : ∀ ps : Ports,
      (edgesFrom e.source 0 (ps.connect e.output e.target)).Perm
        (edgesFrom e.source 0 ps ++ [e]) := by
    intro ps
    have first := edgesFrom_connect e.source 0 ps e.output e.target
    rwa [Nat.zero_add] at first
  induction c with
  | nil =>
    have only := added []
    simp only [edges, connect, Named.update, List.flatMap_cons, List.flatMap_nil, List.append_nil,
      Option.getD_none, Named.get?_cons, beq_self_eq_true, if_true, Option.getD_some]
    exact only
  | cons p c ih =>
    obtain ⟨k, types⟩ := p
    simp only [edges, connect, Named.update, List.flatMap_cons] at ih ⊢
    -- The edge comes behind those of its source, and those of the sources after that have to be
    -- passed.
    split
    · rename_i same
      obtain rfl := beq_iff_eq.1 same
      simp only [List.flatMap_cons, Option.getD_some, Named.get?_update_self, List.append_assoc]
      refine ((added _).append_right _).trans ?_
      rw [List.append_assoc]
      exact List.perm_append_comm.append_left _
    · simp only [List.flatMap_cons, List.append_assoc]
      exact ih.append_left _

theorem names_connect (distinct : c.names.Nodup) (e : Edge) :
    (c.connect e.source e.output e.target.node e.target.index).names.Nodup :=
  Named.nodup_update distinct _ _

/-- Connections hold what was connected: on every port, the targets in the order of the calls, and
on the whole, each connection as often as it was made. -/
structure Holds (c : Connections) (calls : List Edge) : Prop where
  targets : ∀ source output, (c.outputs source).targets output =
    (calls.filter fun e => e.source = source ∧ e.output = output).map Edge.target
  edges : c.edges.Perm calls
  distinct : c.names.Nodup

theorem Holds.connect {calls : List Edge} (holds : c.Holds calls) (e : Edge) :
    (c.connect e.source e.output e.target.node e.target.index).Holds (calls ++ [e]) where
  targets source output := by
    rw [targets_connect, holds.targets, List.filter_append, List.map_append, List.filter_singleton]
    split
    · rename_i both
      rw [decide_eq_true both]
      rfl
    · rename_i other
      rw [decide_eq_false other]
      rfl
  edges := (edges_connect c e).trans (holds.edges.append_right _)
  distinct := names_connect holds.distinct e

/-- **What is connected is held.** -/
theorem holds_connectAll (calls : List Edge) : (connectAll [] calls).Holds calls := by
  have further : ∀ (made : List Edge) {c : Connections}, c.Holds made →
      (c.connectAll calls).Holds (made ++ calls) := by
    induction calls with
    | nil =>
      intro made c holds
      rwa [List.append_nil]
    | cons e calls ih =>
      intro made c holds
      have next := ih (made ++ [e]) (holds.connect e)
      rwa [List.append_assoc] at next
  exact further [] ⟨fun _ _ => rfl, .refl _, List.nodup_nil⟩

/-! ## Connections by source and port -/

theorem mem_edgesFrom {source : String} {first : Nat} {ps : Ports} {e : Edge}
    (h : e ∈ edgesFrom source first ps) :
    e.source = source ∧ first ≤ e.output := by
  induction ps generalizing first with
  | nil => exact absurd h List.not_mem_nil
  | cons targets ps ih =>
    rcases List.mem_append.1 h with here | later
    · obtain ⟨t, -, rfl⟩ := List.mem_map.1 here
      exact ⟨rfl, Nat.le_refl first⟩
    · exact ⟨(ih later).1, Nat.le_of_succ_le (ih later).2⟩

theorem source_of_mem_edges {e : Edge} (h : e ∈ c.edges) : e.source ∈ c.names := by
  obtain ⟨p, mem, here⟩ := List.mem_flatMap.1 h
  rw [(mem_edgesFrom here).1]
  exact List.mem_map_of_mem mem

/-- The connections from a port are its targets. -/
theorem count_edgesFrom (source : String) (first output : Nat) (ps : Ports) (t : Target) :
    (edgesFrom source first ps).count ⟨source, first + output, t⟩
      = (ps.targets output).count t := by
  -- The induction is on the ports, and the first of them is the port that is asked for or the
  -- others have it.
  induction ps generalizing first output with
  | nil => rfl
  | cons targets ps ih =>
    have injective : Function.Injective (Edge.mk source first) :=
      fun _ _ same => (Edge.mk.inj same).2.2
    rw [edgesFrom, List.count_append]
    cases output with
    | zero =>
      -- The ports after it have higher numbers.
      have later : Edge.mk source first t ∉ edgesFrom source (first + 1) ps := fun mem =>
        absurd (mem_edgesFrom mem).2 (Nat.not_succ_le_self first)
      rw [Nat.add_zero, List.count_map_of_injective targets _ injective,
        List.count_eq_zero_of_not_mem later]
      rfl
    | succ output =>
      -- The edges of this port have its number.
      have here : Edge.mk source (first + (output + 1)) t ∉ targets.map (Edge.mk source first) :=
        fun mem => by
        obtain ⟨_, -, same⟩ := List.mem_map.1 mem
        have outputs := congrArg Edge.output same
        simp only at outputs
        omega
      have rest := ih (first + 1) output
      rw [Nat.add_assoc, Nat.add_comm 1 output] at rest
      rw [List.count_eq_zero_of_not_mem here, Nat.zero_add, rest]
      rfl

/-- **Of all connections, those from a port are its targets.** -/
theorem count_edges (distinct : c.names.Nodup) (source : String) (output : Nat) (t : Target) :
    c.edges.count ⟨source, output, t⟩ = ((c.outputs source).targets output).count t := by
  induction c with
  | nil => rfl
  | cons p c ih =>
    obtain ⟨k, types⟩ := p
    obtain ⟨new, distinct⟩ := List.nodup_cons.1 distinct
    have split : edges ((k, types) :: c) = edgesFrom k 0 ((Named.get? types mainType).getD [])
        ++ edges c := rfl
    rw [split, List.count_append]
    by_cases same : source = k
    · subst same
      have later : Edge.mk source output t ∉ edges c := fun mem => new (source_of_mem_edges mem)
      have here := count_edgesFrom source 0 output ((Named.get? types mainType).getD []) t
      rw [Nat.zero_add] at here
      rw [List.count_eq_zero_of_not_mem later, Nat.add_zero, here]
      simp only [outputs, Named.get?_cons, beq_self_eq_true, if_true, Option.bind_some]
    · have here : Edge.mk source output t ∉ edgesFrom k 0 ((Named.get? types mainType).getD []) :=
        fun mem =>
        same (mem_edgesFrom mem).1
      rw [List.count_eq_zero_of_not_mem here, Nat.zero_add, ih distinct]
      simp only [outputs, Named.get?_cons, beq_iff_eq, same, if_false]

/-! ## Connections of other types -/

/-- Connections without those of other types than the one that carries items. -/
def carrying (c : Connections) : Connections := c.map fun p => (p.1, p.2.filter (·.1 == mainType))

theorem outputs_carrying (c : Connections) : c.carrying.outputs = c.outputs := by
  funext source
  have types :
      c.carrying.get? source = (c.get? source).map fun types => types.filter (·.1 == mainType) :=
    Named.get?_map _ c source
  rw [outputs, outputs, types]
  cases c.get? source with
  | none => rfl
  | some types => simp only [Option.map_some, Option.bind_some, Named.get?_filter]

theorem edges_carrying (c : Connections) : c.carrying.edges = c.edges := by
  simp only [edges, carrying, List.flatMap_map, Named.get?_filter]

end Connections

/-! ## What arrives at a node -/

/-- Order by input port, then source, then output port. -/
def Inbound.Before (a b : Inbound) : Prop :=
  a.input < b.input ∨ a.input = b.input ∧
    (a.source < b.source ∨ a.source = b.source ∧ a.output ≤ b.output)

namespace Graph

theorem Inbound.le_iff {a b : Conveyor.Inbound} : Inbound.le a b = true ↔ a.Before b := by
  simp only [Inbound.le, Ordering.isLE_then_iff_or, Nat.isLE_compare, compare_lt_iff_lt,
    Std.compare_eq_iff_eq, Conveyor.Inbound.Before]

variable {g : Graph}

/-- Of what arrives at a node, a connection is there as often as among all. -/
theorem count_inbound (g : Graph) (name source : String) (output input : Nat) :
    (g.inbound name).count ⟨source, output, input⟩ =
      g.workflow.connections.edges.count ⟨source, output, ⟨name, input⟩⟩ := by
  have same : ∀ e : Edge,
      ((⟨e.source, e.output, e.target.index⟩ : Conveyor.Inbound) == ⟨source, output, input⟩ &&
        e.target.node == name) = (e == ⟨source, output, ⟨name, input⟩⟩) := by
    rintro ⟨s, o, t, i⟩
    rw [Bool.eq_iff_iff]
    simp only [Bool.and_eq_true, beq_iff_eq, Edge.mk.injEq, Target.mk.injEq,
      Conveyor.Inbound.mk.injEq]
    tauto
  rw [inbound, (sortBy_perm _ _).count_eq, arriving_eq, List.count_reverse, List.count,
    List.countP_map, List.countP_filter, List.count]
  exact List.countP_congr fun e _ => by rw [Function.comp_apply, same]

theorem inbound_sorted (g : Graph) (name : String) :
    (g.inbound name).Pairwise Conveyor.Inbound.Before := by
  have order : Inbound.le = fun a b => (compareLex (compareOn Conveyor.Inbound.input)
      (compareLex (compareOn Conveyor.Inbound.source) (compareOn Conveyor.Inbound.output)) a
        b).isLE := rfl
  have sorted : (g.inbound name).Pairwise fun a b => Inbound.le a b = true := by
    rw [inbound, order]
    exact sortBy_pairwise isLE_total (fun _ _ _ => Std.TransCmp.isLE_trans) _
  exact sorted.imp Inbound.le_iff.1

/-- A node is a root if no link leads to its number, and then nothing arrives at its name. -/
theorem isRoot_iff {name : String} :
    g.isRoot name = true ↔ name ∈ g.workflow.nodeNames ∧ g.inbound name = [] := by
  have empty : g.inbound name = [] ↔ g.arriving name = [] := by
    rw [← List.perm_nil, ← List.perm_nil]
    exact ⟨(sortBy_perm _ _).symm.trans, (sortBy_perm _ _).trans⟩
  rw [isRoot, ← exists_number_iff, empty, arriving_eq]
  cases found : g.numbers.get? name with
  | none => simp only [Bool.false_eq_true, reduceCtorEq, exists_false, false_and]
  | some number =>
    simp only [g.incoming_of_number found, List.isEmpty_iff, List.reverse_eq_nil_iff,
      List.map_eq_nil_iff, Option.some.injEq, exists_eq', true_and]

/-! ## The views agree -/

/-- What leaves the ports of its sources arrives at a node, in the order of its own ports. -/
structure Agrees (g : Graph) : Prop where
  /-- A connection arrives at its target as often as it leaves its source. -/
  count : ∀ source output target input, (g.inbound target).count ⟨source, output, input⟩ =
    ((g.workflow.connections.outputs source).targets output).count ⟨target, input⟩
  sorted : ∀ name, (g.inbound name).Pairwise Conveyor.Inbound.Before
  root : ∀ name, g.isRoot name = true ↔ name ∈ g.workflow.nodeNames ∧ g.inbound name = []

theorem agrees (distinct : g.workflow.connections.names.Nodup) : g.Agrees where
  count source output target input := by rw [count_inbound, Connections.count_edges distinct]
  sorted := g.inbound_sorted
  root _ := isRoot_iff

/-- Without the connections of other types, a workflow has a graph with the same views. -/
theorem build_carrying (g : Graph) :
    ∃ g', build { g.workflow with connections := g.workflow.connections.carrying } = .ok g' ∧
      g'.workflow.connections.outputs = g.workflow.connections.outputs ∧
        g'.inbound = g.inbound := by
  have ends : ∀ e ∈ g.workflow.connections.carrying.edges,
      e.source ∈ g.workflow.nodeNames ∧ e.target.node ∈ g.workflow.nodeNames := by
    rw [Connections.edges_carrying]
    exact g.ends_known
  let w : Workflow := { g.workflow with connections := g.workflow.connections.carrying }
  exact ⟨.of w g.names_nodup ends, build_workflow (.of w g.names_nodup ends),
    Connections.outputs_carrying _, inbound_congr (.of_eq (Connections.edges_carrying _))⟩

/-- **Both views of the connections agree.** What is connected is held on the ports of its source,
in the order of the calls, and is listed once for every call. Of a workflow that has a graph, a
connection arrives at its target as often as it is among the targets of its port; what arrives at a
node is sorted by input port, source and output port; a node is a root if nothing arrives at it; and
connections of other types are in neither view. A workflow has no graph exactly if two of its nodes
share a name or a connection names an unknown node. -/
theorem views_agree :
    (∀ calls, (Connections.connectAll [] calls).Holds calls) ∧
      (∀ w g, build w = .ok g → w.connections.names.Nodup → g.workflow = w ∧ g.Agrees ∧
        ∃ g', build { w with connections := w.connections.carrying } = .ok g' ∧
          g'.workflow.connections.outputs = w.connections.outputs ∧ g'.inbound = g.inbound) ∧
      ∀ w, (∃ err, build w = .error err) ↔
        ¬w.nodeNames.Nodup ∨ ∃ e ∈ w.connections.edges, e.source ∉ w.nodeNames ∨
          e.target.node ∉ w.nodeNames := by
  refine ⟨Connections.holds_connectAll, fun w g built distinct => ?_, build_error_iff⟩
  obtain rfl := workflow_of_build built
  exact ⟨rfl, agrees distinct, build_carrying g⟩

end Graph

/-! ## Two connections alike -/

namespace Twin

/-- The output of A goes to one port of J twice, and from another port to the one before; J is a
tool of A as well. -/
def workflow : Workflow where
  id := "twin"
  name := "Twin"
  nodes := [{ id := "1", name := "A", type := "noOp" }, { id := "2", name := "J", type := "noOp" }]
  connections := [("A", [("tool", [[⟨"J", 0⟩]]), ("main", [[⟨"J", 1⟩, ⟨"J", 1⟩], [⟨"J", 0⟩]])])]

def graph : Graph := .of workflow (by decide) (by decide)

/-- Of the connections to J, both that are alike arrive, behind the one to the port before, and the
tool does not. -/
theorem arrivals_agree : Graph.build workflow = .ok graph ∧ workflow.connections.names.Nodup ∧
    graph.Agrees ∧ graph.inbound "J" = [⟨"A", 1, 0⟩, ⟨"A", 0, 1⟩, ⟨"A", 0, 1⟩] := by
  have built : Graph.build workflow = .ok graph := Graph.build_workflow graph
  have distinct : workflow.connections.names.Nodup := by decide
  obtain ⟨-, agrees, -⟩ := Graph.views_agree.2.1 workflow graph built distinct
  exact ⟨built, distinct, agrees, by decide⟩

end Twin

end Conveyor
