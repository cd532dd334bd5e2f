/-
What indexing makes of a workflow.

Indexing adds node after node and then connection after connection. If no name comes twice, the
nodes have the numbers in which they stand in the workflow (`addNodes_eq_ok_iff`); if all ends are
known, the links are the connections by these numbers, the last one in front (`addEdges_eq_ok_iff`).
So a workflow has a graph exactly if its names are distinct and its connections have known ends, and
there is only one (`index_eq_ok_iff`, `Graph.eq_of_workflow`).

Through the numbers the graph tells of the workflow what the workflow says: a node is found by its
name (`Graph.node?_eq_find?`), and what arrives at it are the connections that have it as their
target (`Graph.arriving_eq`). What is proved about the engine rests on these two and not on the
numbers.
-/
import Conveyor.Proofs.Named
import Conveyor.Workflow.Graph
import Mathlib.Data.List.Nodup

set_option autoImplicit false

namespace Conveyor

namespace Wiring

/-! ## Nodes -/

/-- The names of nodes with the numbers of the nodes. -/
def numbering (ns : List Node) : Named Nat := ns.zipIdx.map fun p => (p.1.name, p.2)

/-- Nodes by number, without connections. -/
def ofNodes (ns : List Node) : Wiring := ⟨⟨List.range ns.length, []⟩, numbering ns⟩

theorem names_numbering (ns : List Node) : (numbering ns).names = ns.map Node.name := by
  have names : Prod.fst ∘ (fun p : Node × Nat => (p.1.name, p.2)) = Node.name ∘ Prod.fst := rfl
  rw [Named.names, numbering, List.map_map, names, ← List.map_map, List.zipIdx_map_fst]

/-- A name has the number of the node that is called so. -/
theorem get?_numbering {ns : List Node} {name : String} {number : Nat}
    (found : (numbering ns).get? name = some number) :
    ∃ n, ns[number]? = some n ∧ n.name = name := by
  obtain ⟨⟨n, i⟩, mem, same⟩ := List.mem_map.1 (Named.mem_of_get? found)
  obtain ⟨rfl, rfl⟩ := Prod.mk.inj same
  exact ⟨n, List.mem_zipIdx_iff_getElem?.1 mem, rfl⟩

/-- One more node gets the next number. -/
theorem ofNodes_append {done : List Node} {n : Node} (fresh : n.name ∉ done.map Node.name) :
    ofNodes (done ++ [n]) =
      ⟨((ofNodes done).network.addNode done.length).2,
        (ofNodes done).numbers.insert n.name (ofNodes done).network.weights.length⟩ := by
  have last : (numbering done).insert n.name done.length = numbering (done ++ [n]) := by
    rw [Named.insert_fresh (names_numbering done ▸ fresh), numbering, numbering, List.zipIdx_append,
      List.map_append, Nat.zero_add]
    rfl
  simp only [ofNodes, Network.addNode, List.length_append, List.length_range, List.length_singleton,
    List.range_succ, last]

/-- Nodes are added behind others exactly if no name comes twice. -/
theorem addNodes_eq_ok_iff {id : String} {done ns : List Node} {w : Wiring}
    (distinct : (done.map Node.name).Nodup) :
    addNodes id (ofNodes done) done.length ns = .ok w ↔
      ((done ++ ns).map Node.name).Nodup ∧ w = ofNodes (done ++ ns) := by
  induction ns generalizing done with
  | nil =>
    rw [addNodes, List.append_nil]
    exact ⟨fun same => ⟨distinct, (Except.ok.inj same).symm⟩, fun h => h.2 ▸ rfl⟩
  | cons n ns ih =>
    have known : (ofNodes done).numbers.contains n.name = true ↔ n.name ∈ done.map Node.name := by
      rw [← names_numbering, Named.mem_names_iff, Named.contains, Option.isSome_iff_exists]
      rfl
    have assoc : done ++ n :: ns = done ++ [n] ++ ns := by
      rw [List.append_assoc, List.singleton_append]
    have split : ((done ++ [n]).map Node.name).Nodup ↔ n.name ∉ done.map Node.name := by
      rw [List.map_append, List.map_singleton, List.nodup_append_comm, List.singleton_append,
        List.nodup_cons, and_iff_left distinct]
    simp only [addNodes]
    split
    · rename_i again
      constructor
      · intro fails
        cases fails
      · rintro ⟨once, -⟩
        rw [assoc, List.map_append] at once
        exact absurd (known.1 again) (split.1 once.of_append_left)
    · rename_i new
      have fresh := mt known.2 new
      have next := ih (split.2 fresh)
      rw [ofNodes_append fresh, List.length_append, List.length_singleton] at next
      rw [assoc]
      exact next

/-! ## Connections -/

/-- A connection by the numbers of its ends, if these are known. -/
def link (numbers : Named Nat) (e : Edge) : Link :=
  ⟨(numbers.get? e.source).getD 0, (numbers.get? e.target.node).getD 0, e.output, e.target.index⟩

/-- Nodes and connections by number with more connections, whose ends are known. -/
def withEdges (w : Wiring) (es : List Edge) : Wiring :=
  { w with network.links := (es.map (link w.numbers)).reverse ++ w.network.links }

theorem number_eq_ok_iff {w : Wiring} {name : String} {number : Nat} :
    w.number name = .ok number ↔ w.numbers.get? name = some number := by
  rw [Wiring.number]
  cases w.numbers.get? name with
  | none => exact ⟨fun fails => (nomatch fails), fun found => nomatch found⟩
  | some i => rw [Except.ok.injEq, Option.some.injEq]

/-- Connections are added exactly if their ends have numbers. -/
theorem addEdges_eq_ok_iff {w w' : Wiring} {es : List Edge} :
    w.addEdges es = .ok w' ↔
      (∀ e ∈ es, e.source ∈ w.numbers.names ∧ e.target.node ∈ w.numbers.names) ∧
      w' = w.withEdges es := by
  induction es generalizing w with
  | nil =>
    rw [addEdges]
    exact ⟨fun same => ⟨fun _ mem => (nomatch mem), (Except.ok.inj same).symm⟩, fun h => h.2 ▸ rfl⟩
  | cons e es ih =>
    rw [addEdges]
    simp only [List.forall_mem_cons, Named.mem_names_iff]
    cases source : w.numbers.get? e.source with
    | none =>
      rw [Wiring.number, source]
      exact ⟨fun fails => (nomatch fails), fun ⟨⟨⟨⟨_, found⟩, _⟩, _⟩, _⟩ => nomatch found⟩
    | some s =>
      cases target : w.numbers.get? e.target.node with
      | none =>
        rw [Wiring.number, Wiring.number, source, target]
        exact ⟨fun fails => (nomatch fails), fun ⟨⟨⟨_, ⟨_, found⟩⟩, _⟩, _⟩ => nomatch found⟩
      | some t =>
        -- The link that is added first lies behind those of the connections after it.
        have first : link w.numbers e = ⟨s, t, e.output, e.target.index⟩ := by
          rw [link, source, target]
          rfl
        rw [number_eq_ok_iff.2 source, number_eq_ok_iff.2 target]
        refine ih.trans ?_
        simp only [Named.mem_names_iff, withEdges, Network.addLink, List.map_cons,
          List.reverse_cons, List.append_assoc, List.singleton_append, first]
        exact and_congr_left fun _ => (and_iff_right ⟨⟨s, rfl⟩, ⟨t, rfl⟩⟩).symm

/-! ## Workflows -/

/-- The nodes and connections of a workflow by number, if its names are distinct and its connections
have known ends. -/
def ofWorkflow (w : Workflow) : Wiring := (ofNodes w.nodes).withEdges w.connections.edges

/-- **Indexing succeeds exactly if names are distinct and ends are known**, and there is one way to
number a workflow. -/
theorem index_eq_ok_iff {w : Workflow} {wiring : Wiring} :
    index w = .ok wiring ↔ w.nodeNames.Nodup ∧
      (∀ e ∈ w.connections.edges, e.source ∈ w.nodeNames ∧ e.target.node ∈ w.nodeNames) ∧
      wiring = ofWorkflow w := by
  have nodes : ∀ x, addNodes w.id (ofNodes []) 0 w.nodes = .ok x ↔
      w.nodeNames.Nodup ∧ x = ofNodes w.nodes := fun _ => addNodes_eq_ok_iff List.nodup_nil
  have names : (ofNodes w.nodes).numbers.names = w.nodeNames := names_numbering w.nodes
  rw [index]
  cases added : addNodes w.id {} 0 w.nodes with
  | error err =>
    refine ⟨fun fails => (nomatch fails), fun ⟨distinct, _⟩ => ?_⟩
    exact nomatch added.symm.trans ((nodes _).2 ⟨distinct, rfl⟩)
  | ok x =>
    obtain ⟨distinct, rfl⟩ := (nodes x).1 added
    refine addEdges_eq_ok_iff.trans ?_
    rw [names]
    exact (and_iff_right distinct).symm

end Wiring

namespace Graph

theorem names_nodup (g : Graph) : g.workflow.nodeNames.Nodup :=
  (Wiring.index_eq_ok_iff.1 g.indexed).1

theorem ends_known (g : Graph) : ∀ e ∈ g.workflow.connections.edges,
    e.source ∈ g.workflow.nodeNames ∧ e.target.node ∈ g.workflow.nodeNames :=
  (Wiring.index_eq_ok_iff.1 g.indexed).2.1

theorem toWiring_eq (g : Graph) : g.toWiring = Wiring.ofWorkflow g.workflow :=
  (Wiring.index_eq_ok_iff.1 g.indexed).2.2

/-- The graph of a workflow whose names are distinct and whose connections have known ends. -/
def of (w : Workflow) (distinct : w.nodeNames.Nodup)
    (known : ∀ e ∈ w.connections.edges, e.source ∈ w.nodeNames ∧ e.target.node ∈ w.nodeNames) :
    Graph :=
  ⟨Wiring.ofWorkflow w, w, Wiring.index_eq_ok_iff.2 ⟨distinct, known, rfl⟩⟩

/-- A workflow has one graph at most. -/
theorem eq_of_workflow {g g' : Graph} (same : g.workflow = g'.workflow) : g = g' := by
  have wiring : g.toWiring = g'.toWiring := by rw [toWiring_eq, toWiring_eq, same]
  obtain ⟨x, w, _⟩ := g
  obtain ⟨x', w', _⟩ := g'
  obtain rfl : w = w' := same
  obtain rfl : x = x' := wiring
  rfl

/-- A workflow has a graph if its names are distinct and its connections have known ends. -/
theorem build_workflow (g : Graph) : build g.workflow = .ok g := by
  rw [build]
  split
  · rename_i fails
    exact nomatch fails.symm.trans g.indexed
  · exact congrArg Except.ok (eq_of_workflow rfl)

/-- The graph of a workflow is a graph of this workflow. -/
theorem workflow_of_build {w : Workflow} {g : Graph} (built : build w = .ok g) :
    g.workflow = w := by
  rw [build] at built
  split at built
  · exact nomatch built
  · exact Except.ok.inj built ▸ rfl

/-- A workflow has no graph exactly if a name is there twice or a connection has an end that is no
node. -/
theorem build_error_iff (w : Workflow) : (∃ err, build w = .error err) ↔
    ¬w.nodeNames.Nodup ∨ ∃ e ∈ w.connections.edges, e.source ∉ w.nodeNames ∨
      e.target.node ∉ w.nodeNames := by
  constructor
  · rintro ⟨err, fails⟩
    by_contra fine
    simp only [not_or, not_not, not_exists, not_and] at fine
    exact nomatch fails.symm.trans (build_workflow (of w fine.1 fine.2))
  · intro wrong
    cases built : build w with
    | error err => exact ⟨err, rfl⟩
    | ok g =>
      obtain rfl := workflow_of_build built
      rcases wrong with names | ⟨e, he, source | target⟩
      · exact absurd g.names_nodup names
      · exact absurd (g.ends_known e he).1 source
      · exact absurd (g.ends_known e he).2 target

variable (g : Graph)

/-! ## Nodes by number and by name -/

theorem numbers_eq : g.numbers = Wiring.numbering g.workflow.nodes :=
  congrArg Wiring.numbers g.toWiring_eq

/-- Every node of a workflow has a number, and no other name has one. -/
theorem exists_number_iff {name : String} :
    (∃ number, g.numbers.get? name = some number) ↔ name ∈ g.workflow.nodeNames := by
  rw [← Named.mem_names_iff, numbers_eq, Wiring.names_numbering, Workflow.nodeNames]

theorem nodeAt?_eq (number : Nat) : g.nodeAt? number = g.workflow.nodes[number]? := by
  have weights : g.network.weights = List.range g.workflow.nodes.length :=
    congrArg (fun x => x.network.weights) g.toWiring_eq
  rw [nodeAt?, weights]
  by_cases within : number < g.workflow.nodes.length
  · rw [List.getElem?_range within]
    rfl
  · rw [List.getElem?_eq_none (by simpa using within),
      List.getElem?_eq_none (by simpa using within)]
    rfl

/-- Under the number of a name stands the node that is called so. -/
theorem nodeAt?_of_number {name : String} {number : Nat}
    (found : g.numbers.get? name = some number) :
    ∃ n, g.nodeAt? number = some n ∧ n ∈ g.workflow.nodes ∧ n.name = name := by
  rw [numbers_eq] at found
  obtain ⟨n, there, called⟩ := Wiring.get?_numbering found
  exact ⟨n, (g.nodeAt?_eq number).trans there, List.mem_of_getElem? there, called⟩

/-- Different names have different numbers. -/
theorem eq_of_number {name other : String} {number : Nat}
    (found : g.numbers.get? name = some number) (found' : g.numbers.get? other = some number) :
    name = other := by
  obtain ⟨n, there, -, rfl⟩ := g.nodeAt?_of_number found
  obtain ⟨m, there', -, rfl⟩ := g.nodeAt?_of_number found'
  rw [Option.some.inj (there.symm.trans there')]

/-- **Nodes are found by their names.** -/
theorem node?_eq_find? (name : String) :
    g.node? name = g.workflow.nodes.find? (·.name == name) := by
  rw [node?]
  cases found : g.numbers.get? name with
  | none =>
    refine (List.find?_eq_none.2 fun n hn called => ?_).symm
    obtain ⟨number, some⟩ := g.exists_number_iff.2 (List.mem_map_of_mem hn)
    rw [beq_iff_eq.1 called, found] at some
    exact nomatch some
  | some number =>
    obtain ⟨n, there, hn, rfl⟩ := g.nodeAt?_of_number found
    have among : (g.workflow.nodes.find? (·.name == n.name)).isSome :=
      List.find?_isSome.2 ⟨n, hn, BEq.rfl⟩
    obtain ⟨m, first⟩ := Option.isSome_iff_exists.1 among
    have same : m.name = n.name := by simpa using List.find?_some first
    rw [first,
      ← List.inj_on_of_nodup_map g.names_nodup hn (List.mem_of_find?_eq_some first) same.symm]
    exact there

/-! ## What arrives -/

theorem links_eq :
    g.network.links = (g.workflow.connections.edges.map (Wiring.link g.numbers)).reverse := by
  have links := congrArg (fun x => x.network.links) g.toWiring_eq
  rw [numbers_eq]
  exact links.trans (List.append_nil _)

/-- The links to a node are the connections that have it as their target, the last one in front. -/
theorem incoming_of_number {name : String} {number : Nat}
    (found : g.numbers.get? name = some number) :
    g.network.incoming number = ((g.workflow.connections.edges.filter (·.target.node == name)).map
      (Wiring.link g.numbers)).reverse := by
  rw [Network.incoming, links_eq, List.filter_reverse, List.filter_map]
  congr 2
  refine List.filter_congr fun e he => ?_
  obtain ⟨target, known⟩ := g.exists_number_iff.2 (g.ends_known e he).2
  rw [Function.comp_apply, Wiring.link, known, Option.getD_some, Bool.eq_iff_iff,
    beq_iff_eq, beq_iff_eq]
  refine ⟨fun same => g.eq_of_number (same ▸ known) found, fun same => ?_⟩
  rw [same, found] at known
  exact (Option.some.inj known).symm

/-- **What arrives at a node are the connections that have it as their target**, the last one in
front. -/
theorem arriving_eq (name : String) :
    g.arriving name = ((g.workflow.connections.edges.filter (·.target.node == name)).map
      fun e => ⟨e.source, e.output, e.target.index⟩).reverse := by
  rw [arriving]
  cases found : g.numbers.get? name with
  | none =>
    have none : g.workflow.connections.edges.filter (·.target.node == name) = [] := by
      refine List.filter_eq_nil_iff.2 fun e he leads => ?_
      obtain ⟨number, some⟩ := g.exists_number_iff.2 (g.ends_known e he).2
      rw [beq_iff_eq.1 leads, found] at some
      exact nomatch some
    rw [none]
    rfl
  | some number =>
    simp only [g.incoming_of_number found, List.filterMap_reverse, List.filterMap_map]
    rw [← List.filterMap_eq_map]
    refine congrArg List.reverse (List.filterMap_congr fun e he => ?_)
    obtain ⟨source, known⟩ := g.exists_number_iff.2 (g.ends_known e (List.mem_of_mem_filter he)).1
    obtain ⟨n, there, -, called⟩ := g.nodeAt?_of_number known
    rw [Function.comp_apply, Function.comp_apply, Wiring.link, known, Option.getD_some,
      there, ← called]
    rfl

theorem mem_arriving_iff {name : String} {l : Conveyor.Inbound} :
    l ∈ g.arriving name ↔ Edge.mk l.source l.output
      ⟨name, l.input⟩ ∈ g.workflow.connections.edges := by
  simp only [arriving_eq, List.mem_reverse, List.mem_map, List.mem_filter, beq_iff_eq]
  constructor
  · rintro ⟨e, ⟨he, rfl⟩, rfl⟩
    exact he
  · exact fun mem => ⟨_, ⟨mem, rfl⟩, rfl⟩

/-- The same connections in any order arrive in the same order. -/
theorem inbound_congr {g g' : Graph}
    (perm : g.workflow.connections.edges.Perm g'.workflow.connections.edges) :
    g.inbound = g'.inbound := by
  funext name
  have arriving : (g.arriving name).Perm (g'.arriving name) := by
    rw [arriving_eq, arriving_eq]
    exact (List.reverse_perm _).trans (((perm.filter _).map _).trans (List.reverse_perm _).symm)
  refine sortBy_key_eq_of_perm (compareLex (compareOn Conveyor.Inbound.input)
    (compareLex (compareOn Conveyor.Inbound.source) (compareOn Conveyor.Inbound.output))) id
    (fun a _ b _ same => ?_) arriving
  -- Two connections that arrive alike come from the same port and lead to the same one.
  simp only [compareLex, compareOn, Ordering.then_eq_eq, id_eq] at same
  obtain ⟨input, source, output⟩ := same
  obtain ⟨s, o, i⟩ := a
  obtain ⟨s', o', i'⟩ := b
  obtain rfl : i = i' := Std.LawfulEqCmp.eq_of_compare input
  obtain rfl : s = s' := Std.LawfulEqCmp.eq_of_compare source
  obtain rfl : o = o' := Std.LawfulEqCmp.eq_of_compare output
  rfl

end Graph

end Conveyor
