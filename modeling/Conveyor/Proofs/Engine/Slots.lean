/-
Input lists, filled one connection after the other.

What a node gets is described as a whole: there is a list for each input port up to the highest one
that is wired, and each has the items of the connections that arrive on it (`Entry.gather`). A
program that makes these lists goes through the connections, finds the list of each one's port, and
puts the items behind those that are there. It has the lists made beforehand, as many as there are
ports (`joined?`), or makes them on the way, when a port is higher than all before (`collected?`).
Either way it must never look for a list that is not there. Here the lists are filled in that way,
with a check whenever one is looked for, and it is shown that no check ever fails and that the whole
is made.
-/
import Conveyor.Proofs.Engine.Delivery

set_option autoImplicit false

namespace Conveyor

/-! ## Looking for a list -/

namespace Slots

/-- Makes items the list of a port, if there is such a list. -/
def set? (inputs : List Items) (port : Nat) (items : Items) : Option (List Items) :=
  if port < inputs.length then some (inputs.set port items) else none

/-- Puts items into the list of a port, behind those that are there, if there is such a list. -/
def put? (inputs : List Items) (port : Nat) (items : Items) : Option (List Items) :=
  if port < inputs.length then some (inputs.modify port (· ++ items)) else none

/-- Puts in the items of some connections, one after the other. -/
def fill? (itemsOf : Inbound → Items) : List Items → List Inbound → Option (List Items)
  | inputs, [] => some inputs
  | inputs, l :: links => (put? inputs l.input (itemsOf l)).bind fun inputs =>
    fill? itemsOf inputs links

/-- Adds empty lists until a port has one. -/
def grow (inputs : List Items) (port : Nat) : List Items :=
  inputs ++ List.replicate (port + 1 - inputs.length) []

/-- Puts in the items of some connections, one after the other, where lists are added when they are
needed. -/
def collect? (itemsOf : Inbound → Items) : List Items → List Inbound → Option (List Items)
  | inputs, [] => some inputs
  | inputs, l :: links =>
    (put? (grow inputs l.input) l.input (itemsOf l)).bind fun inputs =>
      collect? itemsOf inputs links

variable {inputs : List Items} {links : List Inbound} {port : Nat} (itemsOf : Inbound → Items)

/-- The list of a port that is there gets the items, and nothing else changes. -/
theorem put?_of_lt (there : port < inputs.length) (items : Items) :
    ∃ inputs', put? inputs port items = some inputs' ∧ inputs'.length = inputs.length ∧
    ∀ k, inputs'.getD k [] = inputs.getD k [] ++ if port = k then items else [] := by
  refine ⟨inputs.modify port (· ++ items), if_pos there, List.length_modify .., fun k => ?_⟩
  rw [List.getD_eq_getElem?_getD, List.getElem?_modify, List.getD_eq_getElem?_getD]
  split
  next same =>
    subst same
    rw [List.getElem?_eq_getElem there]
    rfl
  next =>
    rw [List.append_nil]
    exact congrArg (Option.getD · []) (id_map _)

@[simp] theorem length_grow : (grow inputs port).length = max inputs.length (port + 1) := by
  rw [grow, List.length_append, List.length_replicate]
  omega

@[simp] theorem getD_grow (k : Nat) : (grow inputs port).getD k [] = inputs.getD k [] := by
  rw [grow, List.getD_eq_getElem?_getD, List.getD_eq_getElem?_getD]
  rcases Nat.lt_or_ge k inputs.length with there | added
  · rw [List.getElem?_append_left there]
  · rw [List.getElem?_append_right added, List.getElem?_eq_none added, List.getElem?_replicate]
    split <;> rfl

theorem filter_cons_flatMap (l : Inbound) (k : Nat) :
    ((l :: links).filter (·.input == k)).flatMap itemsOf = (if l.input = k then itemsOf l else [])
    ++ (links.filter (·.input == k)).flatMap itemsOf := by
  by_cases here : l.input = k <;> simp [here]

/-- Where all ports have lists, all connections are put in. -/
theorem fill?_of_lt (there : ∀ l ∈ links, l.input < inputs.length) :
    ∃ inputs', fill? itemsOf inputs links = some inputs' ∧ inputs'.length = inputs.length ∧
    ∀ k, inputs'.getD k [] = inputs.getD k [] ++ (links.filter (·.input == k)).flatMap itemsOf := by
  induction links generalizing inputs with
  | nil => exact ⟨inputs, rfl, rfl, fun k => (List.append_nil _).symm⟩
  | cons l links ih =>
    obtain ⟨here, rest⟩ := List.forall_mem_cons.1 there
    obtain ⟨mid, put, width, each⟩ := put?_of_lt here (itemsOf l)
    obtain ⟨last, filled, width', each'⟩ := ih (width.symm ▸ rest)
    refine ⟨last, by rw [fill?, put]; exact filled, width'.trans width, fun k => ?_⟩
    rw [each', each, filter_cons_flatMap, List.append_assoc]

theorem portCount_cons (l : Inbound) :
    portCount (l :: links) = max (l.input + 1) (portCount links) := by
  rw [portCount, List.map_cons, List.foldl_cons, Nat.zero_max, RunData.foldl_max_eq]
  rfl

/-- Where lists are added when they are needed, all connections are put in. -/
theorem collect?_eq_some (inputs : List Items) (links : List Inbound) :
    ∃ inputs', collect? itemsOf inputs links = some inputs' ∧ inputs'.length = max inputs.length
      (portCount links) ∧
    ∀ k, inputs'.getD k [] = inputs.getD k [] ++ (links.filter (·.input == k)).flatMap itemsOf := by
  induction links generalizing inputs with
  | nil => exact ⟨inputs, rfl, (Nat.max_zero _).symm, fun k => (List.append_nil _).symm⟩
  | cons l links ih =>
    have here : l.input < (grow inputs l.input).length := by
      rw [length_grow]
      omega
    obtain ⟨mid, put, width, each⟩ := put?_of_lt here (itemsOf l)
    obtain ⟨last, collected, width', each'⟩ := ih mid
    refine ⟨last, by rw [collect?, put]; exact collected, ?_, fun k => ?_⟩
    · rw [width', width, length_grow, portCount_cons, Nat.max_assoc]
    · rw [each', each, getD_grow, filter_cons_flatMap, List.append_assoc]

end Slots

/-- Lists of items are what is gathered if there is one for every port that is wired, with the items
that arrive. -/
theorem Entry.eq_gather_inputs {inputs : List Items} {links : List Inbound} {f : Inbound → Items}
    (width : inputs.length = portCount links)
    (each : ∀ k, inputs.getD k [] = (links.filter (·.input == k)).flatMap f) (node : String) :
    inputs = (gather node links f).inputs := by
  refine List.ext_getElem (by rw [width, gather_inputs_length]) fun k here there => ?_
  rw [← List.getD_eq_getElem _ [] here, ← List.getD_eq_getElem _ [] there, each, gather_inputs_getD]

/-! ## The three ways -/

/-- Items on one input port, put into lists made beforehand. -/
def single? (port : Nat) (items : Items) : Option (List Items) :=
  Slots.set? (List.replicate (port + 1) []) port items

/-- The lists of a node that waits for several sources, made beforehand. -/
def Agenda.joined? (a : Agenda) (links : List Inbound) : Option (List Items) :=
  Slots.fill? (fun l => a.outputOf l.source l.output) (List.replicate (portCount links) []) links

/-- The lists of a node with the last outputs of its sources, made on the way. -/
def Graph.collected? (g : Graph) (tasks : RunData) (node : String) : Option (List Items) :=
  let links := (g.inbound node).filter fun l => (tasks.lastTask? l.source).isSome
  if links.isEmpty then single? 0 [{}]
  else Slots.collect? (fun l => ((tasks.lastTask? l.source).map (·.port l.output)).getD []) [] links

theorem single?_eq (node : String) (port : Nat) (items : Items) (sources : List Source) :
    single? port items = some (Entry.single node port items sources).inputs := by
  have there : port < (List.replicate (port + 1) ([] : Items)).length := by
    rw [List.length_replicate]
    exact Nat.lt_succ_self port
  rw [single?, Slots.set?, if_pos there, List.replicate_succ',
    List.set_append_right _ _ (List.length_replicate ▸ Nat.le_refl port)]
  simp only [List.length_replicate, Nat.sub_self, List.set_cons_zero, Entry.single]

/-- **A join finds the lists of all its ports.** -/
theorem Agenda.joined?_eq {a : Agenda} {node : String} {links : List Inbound} {en : Entry}
    (joined : a.join? node links = some en) : a.joined? links = some en.inputs := by
  obtain ⟨-, rfl⟩ := join?_eq_some_iff.1 joined
  have there : ∀ l ∈ links, l.input < (List.replicate (portCount links) ([] : Items)).length :=
    fun l hl => by
    rw [List.length_replicate]
    exact lt_portCount hl
  obtain ⟨inputs, filled, width, each⟩ :=
    Slots.fill?_of_lt (fun l => a.outputOf l.source l.output) there
  rw [joined?, filled]
  refine congrArg some (Entry.eq_gather_inputs (width.trans List.length_replicate)
    (fun k => ?_) node)
  rw [each, List.getD_eq_getElem?_getD, List.getElem?_getD_replicate_default_eq, List.nil_append]

/-- **What is rebuilt finds the lists of all its ports.** -/
theorem Graph.collected?_eq (g : Graph) (tasks : RunData) (node : String) :
    g.collected? tasks node = some (g.rebuild tasks node).inputs := by
  simp only [collected?, rebuild]
  split
  next => exact single?_eq node 0 [{}] []
  next =>
    obtain ⟨inputs, collected, width, each⟩ := Slots.collect?_eq_some
      (fun l => ((tasks.lastTask? l.source).map (·.port l.output)).getD []) []
      ((g.inbound node).filter fun l => (tasks.lastTask? l.source).isSome)
    rw [collected]
    refine congrArg some (Entry.eq_gather_inputs (width.trans (Nat.zero_max _)) (fun k => ?_) node)
    rw [each, List.getD_nil, List.nil_append]

end Conveyor
