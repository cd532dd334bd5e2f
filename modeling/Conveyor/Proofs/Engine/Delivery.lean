/-
Which entries a completed node puts on the stack.

The engine follows the output ports of the node one target after the other: a target with at most
one inbound connection is pushed at once with what that connection carries, and a target with
several is looked at once and pushed if every source of it has an output. `mem_pushes` says what
this comes to without going through the ports. An entry is pushed exactly when the node feeds it,
all sources of it have an output, and its input lists gather the most recent outputs of all its
inbound connections. The two kinds of targets need not be told apart: gathering from a single
connection is the same as putting its items on one port.

A target is pushed at most once for each completion (`nodup_pushes`). For a target with several
connections that is the list of targets already looked at; for one with a single connection it is
the count of its connections, which the deliveries to it cannot exceed.
-/
import Conveyor.Engine.Delivery
import Conveyor.Proofs.Run.Records
import Conveyor.Proofs.Workflow.Wiring
import Mathlib.Data.List.GetD
import Mathlib.Data.List.Nodup

set_option autoImplicit false

namespace Conveyor

/-! ## Deliveries run along connections -/

namespace Connections

/-- The ports of a source hold connections of the workflow. -/
theorem edgesFrom_sublist (c : Connections) (source : String) :
    (edgesFrom source 0 (c.outputs source)).Sublist c.edges := by
  induction c with
  | nil => exact List.nil_sublist _
  | cons p c ih =>
    obtain ⟨k, types⟩ := p
    by_cases hk : source = k
    · subst hk
      have hout : outputs ((source, types) :: c) source
          = (Named.get? types mainType).getD [] := by
        simp only [outputs, Named.get?_cons, beq_self_eq_true, if_true, Option.bind_some]
      rw [hout]
      exact List.sublist_append_left _ _
    · have hout : outputs ((k, types) :: c) source = outputs c source := by
        simp only [outputs, Named.get?_cons, beq_iff_eq, hk, if_false]
      rw [hout]
      exact ih.trans (List.sublist_append_right _ _)

end Connections

/-- The connection that a delivery of a node runs along. -/
def Delivery.edge (source : String) (d : Delivery) : Edge := ⟨source, d.output, d.target⟩

/-- Deliveries run along different connections of the ports. -/
theorem deliveries_sublist (source : String) (k : Nat) (ports : Ports) (output : List Items) :
    ((deliveries k ports output).map (Delivery.edge source)).Sublist
      (Connections.edgesFrom source k ports) := by
  induction ports generalizing k output with
  | nil => simp only [deliveries, List.map_nil, List.nil_sublist]
  | cons targets ports ih =>
    cases output with
    | nil => simp only [deliveries, List.map_nil, List.nil_sublist]
    | cons items rest =>
      simp only [deliveries, Connections.edgesFrom, List.map_append]
      refine List.Sublist.append ?_ (ih (k + 1) rest)
      split
      · exact List.nil_sublist _
      · rw [List.map_map]
        exact List.Sublist.refl _

/-- A delivery carries the items of its output port, of which there are some. -/
theorem items_of_mem_deliveries {k : Nat} {ports : Ports} {output : List Items} {d : Delivery}
    (h : d ∈ deliveries k ports output) :
    k ≤ d.output ∧ d.items = output.getD (d.output - k) [] ∧ d.items ≠ [] := by
  induction ports generalizing k output with
  | nil => simp only [deliveries, List.not_mem_nil] at h
  | cons targets ports ih =>
    cases output with
    | nil => simp only [deliveries, List.not_mem_nil] at h
    | cons items rest =>
      rcases List.mem_append.1 h with h | h
      · split at h
        · simp only [List.not_mem_nil] at h
        · rename_i hne
          obtain ⟨t, _, rfl⟩ := List.mem_map.1 h
          exact ⟨Nat.le_refl k, by simp, fun h0 => hne (by simp [show items = [] from h0])⟩
      · obtain ⟨hk, hitems, hne⟩ := ih h
        refine ⟨by omega, ?_, hne⟩
        rw [hitems, show d.output - k = (d.output - (k + 1)) + 1 by omega, List.getD_cons_succ]

namespace Graph

/-! ## Inbound connections -/

/-- A connection of the workflow is an inbound one of its target. -/
theorem mem_inbound_of_edge {g : Graph} {source : String} {output : Nat} {t : Target}
    (h : Edge.mk source output t ∈ g.workflow.connections.edges) :
    ⟨source, output, t.index⟩ ∈ g.inbound t.node := by
  exact mem_sortBy.2 (g.mem_arriving_iff.2 h)

/-- An inbound connection is a connection of the workflow. -/
theorem edge_of_mem_inbound {g : Graph} {name : String} {l : Inbound} (h : l ∈ g.inbound name) :
    Edge.mk l.source l.output ⟨name, l.input⟩ ∈ g.workflow.connections.edges :=
  g.mem_arriving_iff.1 (mem_sortBy.1 h)

/-- A node that has an inbound connection is a node of the graph. -/
theorem target_known {g : Graph} {name : String} {l : Inbound} (h : l ∈ g.inbound name) :
    name ∈ g.workflow.nodeNames :=
  (g.ends_known _ (edge_of_mem_inbound h)).2

theorem name_of_node? {g : Graph} {name : String} {n : Node} (h : g.node? name = some n) :
    n.name = name := by
  rw [node?_eq_find?] at h
  simpa using List.find?_some h

theorem mem_of_node? {g : Graph} {name : String} {n : Node} (h : g.node? name = some n) :
    n ∈ g.workflow.nodes := by
  rw [node?_eq_find?] at h
  exact List.mem_of_find?_eq_some h

theorem node?_isSome_iff {g : Graph} {name : String} :
    (g.node? name).isSome ↔ name ∈ g.workflow.nodeNames := by
  simp only [node?_eq_find?, List.find?_isSome, beq_iff_eq, Workflow.nodeNames, List.mem_map]

/-- What a completed node delivers, connection by connection. -/
def deliveriesOf (g : Graph) (source : String) (output : List Items) : List Delivery :=
  deliveries 0 (g.workflow.connections.outputs source) output

/-- A delivery runs along an inbound connection of its target, and carries some items. -/
theorem link_of_mem_deliveriesOf {g : Graph} {source : String} {output : List Items} {d : Delivery}
    (h : d ∈ g.deliveriesOf source output) :
    ⟨source, d.output, d.target.index⟩ ∈ g.inbound d.target.node ∧
      d.items = output.getD d.output [] ∧ d.items ≠ [] := by
  obtain ⟨_, hitems, hne⟩ := items_of_mem_deliveries h
  refine ⟨mem_inbound_of_edge ?_, hitems, hne⟩
  have hedge : d.edge source ∈ (g.deliveriesOf source output).map (Delivery.edge source) :=
    List.mem_map.2 ⟨d, h, rfl⟩
  exact (Connections.edgesFrom_sublist _ source).subset
    ((deliveries_sublist source 0 _ output).subset hedge)

/-- A node has at least as many inbound connections as there are deliveries to it. -/
theorem count_deliveriesOf_le (g : Graph) (source : String) (output : List Items) (name : String) :
    ((g.deliveriesOf source output).filter (·.target.node == name)).length
      ≤ (g.inbound name).length := by
  have hsub := ((deliveries_sublist source 0 _ output).trans
    (Connections.edgesFrom_sublist g.workflow.connections source)).filter (·.target.node == name)
  rw [List.filter_map] at hsub
  have hlen := hsub.length_le
  rw [List.length_map] at hlen
  rw [inbound, (sortBy_perm _ _).length_eq, arriving_eq, List.length_reverse, List.length_map]
  exact hlen

end Graph

/-! ## Gathering -/

/-- Every inbound connection has its port among those that are gathered. -/
theorem lt_portCount {links : List Inbound} {l : Inbound} (h : l ∈ links) :
    l.input < portCount links := by
  have among : l.input + 1 ∈ links.map (·.input + 1) := List.mem_map.2 ⟨l, h, rfl⟩
  exact RunData.le_foldl_max among 0

/-- No port is gathered above the highest one that is wired. -/
theorem exists_portCount {links : List Inbound} (h : links ≠ []) :
    ∃ l ∈ links, l.input + 1 = portCount links := by
  obtain ⟨l, hl⟩ := List.exists_mem_of_ne_nil links h
  rcases RunData.foldl_max_mem (links.map (·.input + 1)) 0 with none | some
  · have hpos := lt_portCount hl
    rw [portCount, none] at hpos
    omega
  · obtain ⟨l', hl', heq⟩ := List.mem_map.1 some
    exact ⟨l', hl', heq⟩

namespace Entry

@[simp] theorem gather_node (node : String) (links : List Inbound) (f : Inbound → Items) :
    (gather node links f).node = node := rfl

@[simp] theorem gather_sources (node : String) (links : List Inbound) (f : Inbound → Items) :
    (gather node links f).sources = links.map Inbound.toSource := rfl

@[simp] theorem gather_inputs_length (node : String) (links : List Inbound) (f : Inbound → Items) :
    (gather node links f).inputs.length = portCount links := by
  simp only [gather, List.length_map, List.length_range]

/-- Each port gathers what its connections bring, in their order; a port without any is empty. -/
theorem gather_inputs_getD (node : String) (links : List Inbound) (f : Inbound → Items) (k : Nat) :
    (gather node links f).inputs.getD k [] = (links.filter (·.input == k)).flatMap f := by
  by_cases hk : k < portCount links
  · rw [List.getD_eq_getElem _ _ (by rw [gather_inputs_length]; exact hk)]
    simp only [gather, List.getElem_map, List.getElem_range]
  · rw [List.getD_eq_default _ _ (by rw [gather_inputs_length]; omega)]
    have hnone : links.filter (·.input == k) = [] := by
      refine List.filter_eq_nil_iff.2 fun l hl => ?_
      have := lt_portCount hl
      simp only [beq_iff_eq]
      omega
    rw [hnone, List.flatMap_nil]

/-- Items that a connection brings arrive on some port. -/
theorem gather_nonempty {node : String} {links : List Inbound} {f : Inbound → Items} {l : Inbound}
    (hl : l ∈ links) (hf : f l ≠ []) : ∃ items ∈ (gather node links f).inputs, items ≠ [] := by
  have hlt : l.input < (gather node links f).inputs.length := by
    rw [gather_inputs_length]
    exact lt_portCount hl
  refine ⟨_, List.getElem_mem hlt, fun hnil => ?_⟩
  rw [← List.getD_eq_getElem (gather node links f).inputs [] hlt, gather_inputs_getD,
    List.flatMap_eq_nil_iff] at hnil
  exact hf (hnil l (List.mem_filter.2 ⟨hl, by simp⟩))

/-- Gathering from one connection puts its items on its port. -/
theorem gather_singleton (node : String) (l : Inbound) (f : Inbound → Items) :
    gather node [l] f = single node l.input (f l) [l.toSource] := by
  have hinputs : (gather node [l] f).inputs = List.replicate l.input [] ++ [f l] := by
    refine List.ext_getElem ?_ fun k h₁ h₂ => ?_
    · rw [gather_inputs_length]
      simp [portCount]
    · rw [← List.getD_eq_getElem _ [] h₁, gather_inputs_getD, List.getElem_append]
      have hk : k < l.input + 1 := by simpa using h₂
      by_cases heq : l.input = k
      · simp [heq]
      · have hlt : k < l.input := by omega
        simp [heq, hlt]
  simp only [gather] at hinputs
  simp only [gather, single, hinputs, List.map_cons, List.map_nil]

end Entry

/-! ## What a completion pushes -/

namespace Agenda

/-- A node with several sources is ready when all of them have an output, and gathers them. -/
theorem join?_eq_some_iff {a : Agenda} {node : String} {links : List Inbound} {en : Entry} :
    a.join? node links = some en ↔ (∀ l ∈ links, a.outputs.contains l.source = true) ∧
      en = Entry.gather node links fun l => a.outputOf l.source l.output := by
  simp only [join?, List.all_eq_true]
  split
  · rename_i hall
    simp only [Option.some.injEq]
    exact ⟨fun h => ⟨hall, h.symm⟩, fun h => h.2.symm⟩
  · rename_i hall
    simp only [reduceCtorEq, false_iff]
    exact fun h => hall h.1

/-- The most recent output of a node that has just completed. -/
theorem outputOf_insert_self (a : Agenda) (node : String) (output : List Items) (port : Nat) :
    ({ a with outputs := a.outputs.insert node output } : Agenda).outputOf node port
      = output.getD port [] := by
  simp only [outputOf, Named.get?_insert_self, Option.getD_some]

end Agenda

namespace Graph

/-- What stands behind a ready node: a delivery to it, and either that delivery alone or a look at
all its sources, which no earlier delivery has caused. -/
theorem mem_readyNodes {g : Graph} {a : Agenda} {source : String} {seen : List String}
    {ds : List Delivery} {en : Entry} :
    en ∈ g.readyNodes a source seen ds ↔ ∃ d ∈ ds, d.target.node = en.node ∧
      (((g.inbound en.node).length ≤ 1 ∧ en = Entry.single en.node d.target.index d.items
          [⟨source, d.output, d.target.index⟩]) ∨
        (1 < (g.inbound en.node).length ∧ en.node ∉ seen ∧
          a.join? en.node (g.inbound en.node) = some en)) := by
  induction ds generalizing seen with
  | nil => simp only [readyNodes, List.not_mem_nil, false_and, exists_false]
  | cons d ds ih =>
    simp only [readyNodes, List.exists_mem_cons_iff]
    split
    -- One connection: the delivery is pushed as it is.
    · rename_i hone
      rw [List.mem_cons, ih]
      refine or_congr ⟨?_, ?_⟩ Iff.rfl
      · rintro rfl
        exact ⟨rfl, .inl ⟨hone, rfl⟩⟩
      · rintro ⟨hnode, ⟨_, hen⟩ | ⟨hmany, _⟩⟩
        · rw [hnode]
          exact hen
        · rw [← hnode] at hmany
          omega
    · rename_i hmany
      split
      -- Several connections, and the target was looked at before.
      · rename_i hseen
        rw [ih]
        refine (or_iff_right ?_).symm
        rintro ⟨hnode, ⟨hone, _⟩ | ⟨_, hnew, _⟩⟩
        · rw [hnode] at hmany
          exact hmany hone
        · exact hnew (hnode ▸ hseen)
      -- Several connections, and this is the first look at the target.
      · rename_i hnew
        rw [List.mem_append, Option.mem_toList, ih]
        constructor
        · rintro (hjoin | ⟨d', hd', hnode, h⟩)
          · have hnode : d.target.node = en.node := by
              obtain ⟨_, hen⟩ := Agenda.join?_eq_some_iff.1 hjoin
              rw [hen, Entry.gather_node]
            rw [← hnode]
            exact .inl ⟨rfl, .inr ⟨by omega, hnew, hjoin⟩⟩
          · refine .inr ⟨d', hd', hnode, h.imp_right ?_⟩
            rintro ⟨hlen, hnot, hjoin⟩
            exact ⟨hlen, fun h => hnot (List.mem_cons_of_mem _ h), hjoin⟩
        · rintro (⟨hnode, ⟨hone, _⟩ | ⟨_, _, hjoin⟩⟩ | ⟨d', hd', hnode, h⟩)
          · rw [hnode] at hmany
            exact absurd hone hmany
          · exact .inl (hnode ▸ hjoin)
          · -- A later delivery to the target of `d` stands for the same join.
            by_cases hsame : en.node = d.target.node
            · rcases h with ⟨hone, _⟩ | ⟨_, _, hjoin⟩
              · rw [hsame] at hone
                exact absurd hone hmany
              · exact .inl (hsame ▸ hjoin)
            · refine .inr ⟨d', hd', hnode, h.imp_right ?_⟩
              rintro ⟨hlen, hnot, hjoin⟩
              exact ⟨hlen, fun h => (List.mem_cons.1 h).elim hsame hnot, hjoin⟩

/-- Nodes are made ready once if those with one connection are delivered to once. -/
theorem nodup_readyNodes {g : Graph} {a : Agenda} {source : String} {seen : List String}
    {ds : List Delivery} (hds : ∀ name, (g.inbound name).length ≤ 1 →
      (ds.filter (·.target.node == name)).length ≤ 1) :
    ((g.readyNodes a source seen ds).map Entry.node).Nodup := by
  induction ds generalizing seen with
  | nil => exact List.nodup_nil
  | cons d ds ih =>
    have htail : ∀ name, (g.inbound name).length ≤ 1 →
        (ds.filter (·.target.node == name)).length ≤ 1 := by
      intro name hname
      have := hds name hname
      rw [List.filter_cons] at this
      split at this
      · rw [List.length_cons] at this
        omega
      · exact this
    simp only [readyNodes]
    split
    · rename_i hone
      rw [List.map_cons]
      refine List.nodup_cons.2 ⟨fun hmem => ?_, ih htail⟩
      obtain ⟨en, hen, hnode⟩ := List.mem_map.1 hmem
      obtain ⟨d', hd', htarget, _⟩ := mem_readyNodes.1 hen
      -- A second delivery to the target of `d` would need a second connection to it.
      have htwo := hds _ hone
      have hd : d' ∈ ds.filter (·.target.node == d.target.node) :=
        List.mem_filter.2 ⟨hd', by simpa [Entry.single] using htarget.trans hnode⟩
      rw [List.filter_cons_of_pos (by simp), List.length_cons] at htwo
      have := List.length_pos_of_mem hd
      omega
    · split
      · exact ih htail
      · rename_i hmany _
        rw [List.map_append]
        refine List.nodup_append.2 ⟨?_, ih htail, ?_⟩
        · cases a.join? d.target.node (g.inbound d.target.node) with
          | none => exact List.nodup_nil
          | some en => exact List.nodup_singleton _
        · rintro _ hjoined _ hmem rfl
          obtain ⟨en, hen, rfl⟩ := List.mem_map.1 hjoined
          obtain ⟨en', hen', hnode⟩ := List.mem_map.1 hmem
          obtain ⟨_, hgather⟩ := Agenda.join?_eq_some_iff.1 (Option.mem_toList.1 hen)
          have htarget : en'.node = d.target.node := by rw [hnode, hgather, Entry.gather_node]
          obtain ⟨_, _, _, ⟨hone, _⟩ | ⟨_, hnew, _⟩⟩ := mem_readyNodes.1 hen'
          · rw [htarget] at hone
            exact hmany hone
          · exact hnew (htarget ▸ List.mem_cons_self)

/-- A completed node feeds another one when one of its connections to it carries items. -/
def Feeds (g : Graph) (source : String) (output : List Items) (node : String) : Prop :=
  ∃ d ∈ g.deliveriesOf source output, d.target.node = node

/-- The connection along which a node is fed, and the items on its port. -/
theorem Feeds.link {g : Graph} {source node : String} {output : List Items}
    (h : g.Feeds source output node) :
    ∃ l ∈ g.inbound node, l.source = source ∧ output.getD l.output [] ≠ [] := by
  obtain ⟨d, hd, rfl⟩ := h
  obtain ⟨hlink, hitems, hne⟩ := link_of_mem_deliveriesOf hd
  exact ⟨_, hlink, rfl, hitems ▸ hne⟩

/-- The entries that the completion of a node puts on the stack, the next one first. -/
def pushes (g : Graph) (a : Agenda) (node : String) (output : List Items) : List Entry :=
  g.sortEntries (g.readyNodes { a with outputs := a.outputs.insert node output } node []
    (g.deliveriesOf node output))

theorem complete_stack (g : Graph) (a : Agenda) (node : String) (output : List Items) :
    (g.complete a node output).stack = g.pushes a node output ++ a.stack := rfl

theorem complete_outputs (g : Graph) (a : Agenda) (node : String) (output : List Items) :
    (g.complete a node output).outputs = a.outputs.insert node output := rfl

theorem outputOf_complete_self (g : Graph) (a : Agenda) (node : String) (output : List Items)
    (port : Nat) : (g.complete a node output).outputOf node port = output.getD port [] :=
  Agenda.outputOf_insert_self a node output port

/-- With one connection, the items delivered along it are all there is to gather. -/
theorem gather_of_delivery {g : Graph} {source : String} {output : List Items} {d : Delivery}
    (hd : d ∈ g.deliveriesOf source output) (hone : (g.inbound d.target.node).length ≤ 1)
    (a : Agenda) :
    g.inbound d.target.node = [⟨source, d.output, d.target.index⟩] ∧
      Entry.gather d.target.node (g.inbound d.target.node)
          (fun l => (g.complete a source output).outputOf l.source l.output)
        = Entry.single d.target.node d.target.index d.items
          [⟨source, d.output, d.target.index⟩] := by
  obtain ⟨hlink, hitems, _⟩ := link_of_mem_deliveriesOf hd
  have hlinks : g.inbound d.target.node = [⟨source, d.output, d.target.index⟩] := by
    have := List.length_pos_of_mem hlink
    obtain ⟨l, hl⟩ := List.length_eq_one_iff.1 (show (g.inbound d.target.node).length = 1 by omega)
    rw [hl, List.mem_singleton] at hlink
    rw [hl, hlink]
  refine ⟨hlinks, ?_⟩
  rw [hlinks, Entry.gather_singleton, outputOf_complete_self, hitems]
  rfl

/-- **What a completion pushes.** An entry is put on the stack exactly when the completed node feeds
it, every source of it has an output by now, and it gathers the most recent outputs of all its
connections. -/
theorem mem_pushes {g : Graph} {a : Agenda} {source : String} {output : List Items} {en : Entry} :
    en ∈ g.pushes a source output ↔ g.Feeds source output en.node ∧
      (∀ l ∈ g.inbound en.node, (g.complete a source output).outputs.contains l.source = true) ∧
      en = Entry.gather en.node (g.inbound en.node) fun l =>
        (g.complete a source output).outputOf l.source l.output := by
  have hself : (a.outputs.insert source output).contains source = true :=
    (Named.contains_insert _ _ _ _).2 (.inl rfl)
  rw [pushes, sortEntries, mem_sortBy, mem_readyNodes]
  constructor
  · rintro ⟨d, hd, hnode, ⟨hone, hen⟩ | ⟨_, _, hjoin⟩⟩
    · rw [← hnode] at hone hen
      obtain ⟨hlinks, hgather⟩ := gather_of_delivery hd hone a
      refine ⟨⟨d, hd, hnode⟩, fun l hl => ?_, ?_⟩
      · rw [← hnode, hlinks, List.mem_singleton] at hl
        rw [hl, complete_outputs]
        exact hself
      · rw [← hnode, hgather]
        exact hen
    · obtain ⟨hall, hen⟩ := Agenda.join?_eq_some_iff.1 hjoin
      exact ⟨⟨d, hd, hnode⟩, hall, hen⟩
  · rintro ⟨⟨d, hd, hnode⟩, hall, hen⟩
    refine ⟨d, hd, hnode, ?_⟩
    rcases Nat.lt_or_ge 1 (g.inbound en.node).length with hmany | hone
    · exact .inr ⟨hmany, List.not_mem_nil, Agenda.join?_eq_some_iff.2 ⟨hall, hen⟩⟩
    · refine .inl ⟨hone, ?_⟩
      rw [← hnode] at hone hen ⊢
      rw [← (gather_of_delivery hd hone a).2]
      exact hen

/-- No node is pushed twice by one completion. -/
theorem nodup_pushes (g : Graph) (a : Agenda) (source : String) (output : List Items) :
    ((g.pushes a source output).map Entry.node).Nodup := by
  refine ((sortBy_perm _ _).map Entry.node).nodup_iff.2 (nodup_readyNodes fun name hone => ?_)
  exact Nat.le_trans (g.count_deliveriesOf_le source output name) hone

end Graph

end Conveyor
