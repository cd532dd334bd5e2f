/-
How the node types that decide about items part them.

A node of either type asks for its conditions once for every item, by the item's position. If that
fails for some item, the node fails with the first such failure and gives out nothing. Otherwise
there is one choice for every position, and the items that pass and those that do not are the two
lists that these choices put together to the items again: every item is on one side, where it was
before. What conditions come to does not depend on which of the two types asks, so the one port of
the one is the first port of the other.

Where a node continues on failures, a condition that fails is no failure of the node: only values
that cannot be resolved, that are no filter though they look like one, or that join their conditions
by another word than `and` or `or` make it fail.
-/
import Conveyor.NodeType.Builtin
import Conveyor.Proofs.Filter.Combination

set_option autoImplicit false

namespace Conveyor

/-! ## Lists put together by choices -/

/-- A list put together from two others: for every place a choice tells whether the next element of
the first or of the second stands there. -/
inductive Interleaved {α : Type} : List Bool → List α → List α → List α → Prop
  | nil : Interleaved [] [] [] []
  | first {choices : List Bool} {xs ys zs : List α} (x : α) (rest : Interleaved choices xs ys zs) :
    Interleaved (true :: choices) (x :: xs) ys (x :: zs)
  | second {choices : List Bool} {xs ys zs : List α} (y : α) (rest : Interleaved choices xs ys zs) :
    Interleaved (false :: choices) xs (y :: ys) (y :: zs)

namespace Interleaved

variable {α : Type} {choices : List Bool} {xs ys zs : List α}

theorem sublist_first (h : Interleaved choices xs ys zs) : xs.Sublist zs := by
  induction h with
  | nil => exact .slnil
  | first x _ ih => exact ih.cons_cons x
  | second y _ ih => exact ih.cons y

theorem sublist_second (h : Interleaved choices xs ys zs) : ys.Sublist zs := by
  induction h with
  | nil => exact .slnil
  | first x _ ih => exact ih.cons x
  | second y _ ih => exact ih.cons_cons y

theorem perm (h : Interleaved choices xs ys zs) : (xs ++ ys).Perm zs := by
  induction h with
  | nil => exact .nil
  | first x _ ih => exact ih.cons x
  | second y _ ih => exact List.perm_middle.trans (ih.cons y)

end Interleaved

/-- The same input for a node of another type. -/
def NodeInput.as (i : NodeInput) (type : String) : NodeInput :=
  { i with view := { i.view with node := { i.view.node with type := type } } }

namespace NodeType

open Parameter

variable {i : NodeInput} {index : Nat} {items yes no : Items} {e : Parameter.Error}

/-! ## The loop over the items -/

/-- Whether the item at a position passes; one about which nothing can be decided does not. -/
def passes (i : NodeInput) (index : Nat) : Bool :=
  match holdsFor i index with
  | .ok b => b
  | .error _ => false

/-- The conditions have a value at a position, whatever it is. -/
def Decided (i : NodeInput) (index : Nat) : Prop := ∃ v, i.get "conditions" index .extracted = .ok v

/-- The conditions have no value at a position, and have one at all earlier positions. -/
structure FailsFirst (i : NodeInput) (index : Nat) (e : Parameter.Error) : Prop where
  fails : i.get "conditions" index .extracted = .error e
  before : ∀ j < index, Decided i j

theorem holdsFor_eq_error_iff :
    holdsFor i index = .error e ↔ i.get "conditions" index .extracted = .error e :=
  Filter.map_eq_error_iff

theorem decided_of_holdsFor {b : Bool} (h : holdsFor i index = .ok b) : Decided i index := by
  unfold holdsFor at h
  cases extracted : i.get "conditions" index .extracted with
  | ok v => exact ⟨v, extracted⟩
  | error e =>
    rw [extracted] at h
    cases h

/-- Only the value true lets an item pass. -/
theorem passes_eq_true_iff :
    passes i index = true ↔ i.get "conditions" index .extracted = .ok (.bool true) := by
  unfold passes holdsFor
  cases i.get "conditions" index .extracted with
  | error e => exact iff_of_false nofun nofun
  | ok v =>
    cases v with
    | bool b => simp only [Except.map, isTrue, Except.ok.injEq, Json.bool.injEq]
    | null | num | str | arr | obj => exact iff_of_false nofun nofun

/-- The choices for some items, counted from an index on. -/
def choices (i : NodeInput) (index : Nat) (items : Items) : List Bool :=
  (List.range' index items.length).map (passes i)

theorem choices_cons (item : Item) :
    choices i index (item :: items) = passes i index :: choices i (index + 1) items := by
  unfold choices
  rw [List.length_cons, List.range'_succ, List.map_cons]

theorem getElem?_choices_eq_true_iff {k : Nat} :
    (choices i 0 items)[k]? = some true ↔
      k < items.length ∧ i.get "conditions" k .extracted = .ok (.bool true) := by
  unfold choices
  rw [← passes_eq_true_iff, List.getElem?_map, List.range'_eq_map_range]
  by_cases inside : k < items.length
  · simp [inside]
  · simp [inside]

/-- **The items are parted by the choices.** Whatever comes out of the loop, every position was
decided. -/
theorem partition_of_ok (h : partition i index items = .ok (yes, no)) :
    (∀ k < items.length, Decided i (index + k)) ∧ Interleaved
      (choices i index items) yes no items := by
  -- The induction is on the items that are left; `index` is the position of the first of them.
  induction items generalizing index yes no with
  | nil =>
    obtain ⟨rfl, rfl⟩ := Prod.mk.inj (Except.ok.inj h)
    exact ⟨nofun, .nil⟩
  | cons item items ih =>
    rw [partition] at h
    rw [choices_cons, passes]
    cases held : holdsFor i index with
    | error e =>
      rw [held] at h
      cases h
    | ok b =>
      rw [held] at h
      cases later : partition i (index + 1) items with
      | error e =>
        rw [later] at h
        cases h
      | ok sides =>
        obtain ⟨decided, parted⟩ := ih later
        -- A position is that of the first item or of a later one, and later ones are counted from
        -- `index + 1`.
        refine ⟨fun k inside => ?_, ?_⟩
        · cases k with
          | zero => exact decided_of_holdsFor held
          | succ k =>
            rw [← Nat.add_assoc, Nat.add_right_comm]
            exact decided k (Nat.lt_of_succ_lt_succ inside)
        -- The first item goes to the side that its conditions choose.
        · rw [later] at h
          cases b with
          | true =>
            obtain ⟨rfl, rfl⟩ := Prod.mk.inj (Except.ok.inj h)
            exact .first item parted
          | false =>
            obtain ⟨rfl, rfl⟩ := Prod.mk.inj (Except.ok.inj h)
            exact .second item parted

/-- **The loop fails with the first failure.** -/
theorem partition_of_error (h : partition i index items = .error e) :
    ∃ k < items.length, i.get "conditions" (index + k) .extracted = .error e ∧
      ∀ j < k, Decided i (index + j) := by
  induction items generalizing index with
  | nil => cases h
  | cons item items ih =>
    rw [partition] at h
    cases held : holdsFor i index with
    | error e' =>
      rw [held] at h
      obtain rfl := Except.error.inj h
      exact ⟨0, Nat.succ_pos _, holdsFor_eq_error_iff.1 held, nofun⟩
    | ok b =>
      rw [held] at h
      obtain ⟨k, inside, failed, before⟩ := ih (Filter.map_eq_error_iff.1 h)
      refine ⟨k + 1, Nat.succ_lt_succ inside, ?_, fun j earlier => ?_⟩
      · rwa [← Nat.add_assoc, Nat.add_right_comm]
      · cases j with
        | zero => exact decided_of_holdsFor held
        | succ j =>
          rw [← Nat.add_assoc, Nat.add_right_comm]
          exact before j (Nat.lt_of_succ_lt_succ earlier)

/-! ## What both node types do with it -/

theorem execute_of_error (h : partition i 0 i.mainItems = .error e) :
    filter.execute i = .returns (.failed [e.message]) ∧ branch.execute i = .returns
      (.failed [e.message]) := by
  constructor
  · change Attempt.ofExcept ((Parameter.Error.lift (partition i 0 i.mainItems)).map _) = _
    rw [h]
    rfl
  · change Attempt.ofExcept ((Parameter.Error.lift (partition i 0 i.mainItems)).map _) = _
    rw [h]
    rfl

theorem execute_of_ok (h : partition i 0 i.mainItems = .ok (yes, no)) :
    filter.execute i = .returns (.output [yes]) ∧ branch.execute i = .returns
      (.output [yes, no]) := by
  constructor
  · change Attempt.ofExcept ((Parameter.Error.lift (partition i 0 i.mainItems)).map _) = _
    rw [h]
    rfl
  · change Attempt.ofExcept ((Parameter.Error.lift (partition i 0 i.mainItems)).map _) = _
    rw [h]
    rfl

/-! ## The conditions as a parameter -/

/-- The declaration of the conditions. -/
def conditionsSchema : Schema :=
  { name := "conditions", kind := .filter
    default := .obj [("conditions", .arr []), ("combinator", .str "and")] }

/-- A node declares the conditions and nothing else. -/
def DeclaresConditions (i : NodeInput) : Prop :=
  ∃ name displayName, i.resolver.spec? i.view.node.type = some (conditionsSpec name displayName)

/-- The conditions as they are written for a node. -/
def writtenConditions (i : NodeInput) : Except Parameter.Error Json :=
  written i.view.node.parameters conditionsSchema [.key "conditions"] [] "conditions" none

/-- The conditions are always shown, so what they resolve to is up to what is written alone. -/
theorem get_resolved (declared : DeclaresConditions i) :
    i.get "conditions" index .resolved =
      match writtenConditions i with
      | .error e => .error e
      | .ok raw =>
        match Template.resolve (i.view.runner i.resolver.box index) raw with
        | .error e => .error (.expression e)
        | .ok v => .ok v := by
  obtain ⟨name, displayName, known⟩ := declared
  have path : Path.parse? "conditions" = some [.key "conditions"] := by rfl
  unfold NodeInput.get Resolver.get
  simp only [known, path]
  rfl

/-- Extraction takes the resolved value. -/
theorem get_extracted (declared : DeclaresConditions i) :
    i.get "conditions" index .extracted =
      match i.get "conditions" index .resolved with
      | .error e => .error e
      | .ok v => conditionsSchema.extract "conditions" v index i.view.node.continuesOnFail := by
  rw [get_resolved declared]
  obtain ⟨name, displayName, known⟩ := declared
  have path : Path.parse? "conditions" = some [.key "conditions"] := by rfl
  have place :
      locate (Siblings.mk (conditionsSpec name displayName).properties i.view.node.parameters
        i.view.node.typeVersion).visible [.key "conditions"] = some (conditionsSchema, []) := by rfl
  unfold NodeInput.get Resolver.get
  simp only [known, path, place, writtenConditions]
  cases written i.view.node.parameters conditionsSchema [.key "conditions"]
    [] "conditions" none with
  | error e => rfl
  | ok raw =>
    cases resolved : Template.resolve (i.view.runner i.resolver.box index) raw with
    | error e => simp [resolved]
    | ok v => simp [resolved]

/-! ## Nodes that continue on failures -/

/-- A value that a node can decide by whatever its conditions come to: one that does not look like a
filter, or a filter that joins its conditions by a known word. -/
def Usable (v : Json) : Prop :=
  Filter.hasShape v = true → ∃ f, Filter.decode v = some f ∧
    (f.combinator = "and" ∨ f.combinator = "or")

/-- With failures tolerated, only the word that joins the conditions can be at fault. -/
theorem decide_tolerant_iff (f : Filter) (index : Nat) :
    (∃ b, f.decide index true = .ok b) ↔ f.combinator = "and" ∨ f.combinator = "or" := by
  constructor
  · rintro ⟨b, decided⟩
    unfold Filter.decide Filter.Combinator.ofName? at decided
    split at decided
    · cases decided
    · rename_i named
      split at named
      · exact .inl ‹_›
      · exact .inr ‹_›
      · cases named
  · rintro (known | known)
    · have named : Filter.Combinator.ofName? f.combinator = some .all := by
        rw [known]
        rfl
      exact ⟨_, Filter.decide_eq_ok named (.inl rfl)⟩
    · have named : Filter.Combinator.ofName? f.combinator = some .any := by
        rw [known]
        rfl
      exact ⟨_, Filter.decide_eq_ok named (.inl rfl)⟩

/-- **With failures tolerated, only the filter itself can be at fault.** -/
theorem extract_tolerant_iff (v : Json) (index : Nat) :
    (∃ w, conditionsSchema.extract "conditions" v index true = .ok w) ↔ Usable v := by
  unfold Usable
  change (∃ w, (if Filter.hasShape v then extractDecision "conditions" v index true else .ok v)
    = .ok w) ↔ _
  -- A value that has not the shape of a filter is taken as it is, and is usable for that reason.
  by_cases shape : Filter.hasShape v = true
  · rw [if_pos shape]
    unfold extractDecision
    cases Filter.decode v with
    | none => exact iff_of_false nofun fun usable => nomatch (usable shape).choose_spec.1
    | some f =>
      have joined := decide_tolerant_iff f index
      constructor
      · rintro ⟨w, extracted⟩ -
        refine ⟨f, rfl, joined.1 ?_⟩
        cases decided : f.decide index true with
        | ok b => exact ⟨b, rfl⟩
        | error e => simp only [decided, reduceCtorEq] at extracted
      · intro usable
        obtain ⟨g, same, known⟩ := usable shape
        obtain ⟨b, decided⟩ := joined.2 (Option.some.inj same ▸ known)
        exact ⟨.bool b, by simp only [decided]⟩
  · rw [if_neg shape]
    exact iff_of_true ⟨v, rfl⟩ fun shape' => absurd shape' shape

/-- Where a node continues on failures, its conditions have a value exactly if they resolve to
something usable. -/
theorem decided_iff_usable (declared : DeclaresConditions i)
    (continues : i.view.node.continuesOnFail = true) :
    Decided i index ↔ ∃ v, i.get "conditions" index .resolved = .ok v ∧ Usable v := by
  unfold Decided
  rw [get_extracted declared, continues]
  cases i.get "conditions" index .resolved with
  | error e => exact iff_of_false nofun nofun
  | ok v =>
    rw [extract_tolerant_iff]
    exact ⟨fun usable => ⟨v, rfl, usable⟩, fun ⟨_, same, usable⟩ => Except.ok.inj same ▸ usable⟩

/-! ## Both node types on the same items -/

/-- What the conditions come to is not up to which of the two types asks. -/
theorem get_extracted_as {type type' : String} (declared : DeclaresConditions (i.as type))
    (declared' : DeclaresConditions (i.as type')) :
    (i.as type).get "conditions" index .extracted
      = (i.as type').get "conditions" index .extracted := by
  rw [get_extracted declared, get_extracted declared', get_resolved declared,
    get_resolved declared']
  rfl

theorem partition_congr {i' : NodeInput} (same : ∀ k, holdsFor i k = holdsFor i' k) :
    partition i index items = partition i' index items := by
  induction items generalizing index with
  | nil => rfl
  | cons item items ih => rw [partition, partition, same, ih]

/-- **Nodes of both types fail alike or part the items alike.** -/
theorem fail_or_part (keeps : i.resolver.spec? "filter" = some filter.spec)
    (parts : i.resolver.spec? "if" = some branch.spec) :
    (∃ k < i.mainItems.length, ∃ e, FailsFirst (i.as "if") k e ∧
      filter.execute (i.as "filter") = .returns (.failed [e.message]) ∧
      branch.execute (i.as "if") = .returns (.failed [e.message])) ∨
    (∀ k < i.mainItems.length, Decided (i.as "if") k) ∧ ∃ yes no,
      Interleaved (choices (i.as "if") 0 i.mainItems) yes no i.mainItems ∧
      filter.execute (i.as "filter") = .returns (.output [yes]) ∧
      branch.execute (i.as "if") = .returns (.output [yes, no]) := by
  have declared : DeclaresConditions (i.as "filter") := ⟨"filter", "Filter", keeps⟩
  have declared' : DeclaresConditions (i.as "if") := ⟨"if", "If", parts⟩
  have alike : partition (i.as "filter") 0 i.mainItems = partition (i.as "if") 0 i.mainItems :=
    partition_congr fun k => congrArg (Except.map isTrue) (get_extracted_as declared declared')
  -- All is settled by how the loop over the items ends.
  cases looped : partition (i.as "if") 0 i.mainItems with
  | error e =>
    obtain ⟨k, inside, fails, before⟩ := partition_of_error looped
    simp only [Nat.zero_add] at fails before
    exact .inl ⟨k, inside, e, ⟨fails, before⟩, (execute_of_error (alike.trans looped)).1,
      (execute_of_error looped).2⟩
  | ok sides =>
    obtain ⟨decided, interleaved⟩ := partition_of_ok looped
    simp only [Nat.zero_add] at decided
    exact .inr ⟨decided, sides.1, sides.2, interleaved, (execute_of_ok (alike.trans looped)).1,
      (execute_of_ok looped).2⟩

/-- **Nothing is lost.** If the conditions fail for some item, nodes of both types fail with the
first such failure and give out nothing. Otherwise a node of the one type gives out two lists, which
put together by one choice for every item are the items again, and the choices are for the first
list exactly where the conditions come to true; a node of the other type gives out the first of
these lists. Where they continue on failures, both give out something exactly if for every item the
conditions resolve to something usable, whether single conditions fail or not. -/
theorem items_parted (i : NodeInput) (keeps : i.resolver.spec? "filter" = some filter.spec)
    (parts : i.resolver.spec? "if" = some branch.spec) :
    let kept := filter.execute (i.as "filter")
    let parted := branch.execute (i.as "if")
    let conditions := fun index => (i.as "if").get "conditions" index .extracted
    (∀ index, (i.as "filter").get "conditions" index .extracted = conditions index) ∧
    ((∃ k < i.mainItems.length, ∃ e, conditions k = .error e) →
      ∃ k < i.mainItems.length, ∃ e, FailsFirst (i.as "if") k e ∧ kept = .returns
        (.failed [e.message]) ∧ parted = .returns (.failed [e.message]) ∧
        (NodeResult.failed [e.message]).ports = []) ∧
    ((∀ k < i.mainItems.length, ∃ v, conditions k = .ok v) →
      ∃ yes no choices, kept = .returns (.output [yes]) ∧ parted = .returns (.output [yes, no]) ∧
        Interleaved choices yes no i.mainItems ∧
        (∀ k, choices[k]? = some true ↔ k < i.mainItems.length ∧ conditions k = .ok (.bool true)) ∧
        yes.Sublist i.mainItems ∧ no.Sublist i.mainItems ∧ (yes ++ no).Perm i.mainItems) ∧
    (i.view.node.continuesOnFail = true →
      ((∀ k < i.mainItems.length, ∃ v, (i.as "if").get "conditions" k .resolved = .ok v ∧
        Usable v) ↔ ∃ yes no, kept = .returns (.output [yes]) ∧ parted = .returns
        (.output [yes, no]))) := by
  intro kept parted conditions
  have declared : DeclaresConditions (i.as "filter") := ⟨"filter", "Filter", keeps⟩
  have declared' : DeclaresConditions (i.as "if") := ⟨"if", "If", parts⟩
  refine ⟨fun _ => get_extracted_as declared declared', ?_⟩
  -- Either some item is the first at which the conditions fail, or they are decided for all of
  -- them.
  rcases fail_or_part keeps parts with ⟨k, inside, e, first, failedKept, failed⟩ | ⟨decided, yes,
    no, interleaved, outs⟩
  · have undecided : ¬Decided (i.as "if") k :=
      fun ⟨v, decided⟩ => by cases first.fails.symm.trans decided
    refine ⟨fun _ => ⟨k, inside, e, first, failedKept, failed, rfl⟩,
      fun decided => absurd (decided k inside) undecided,
      fun continues => iff_of_false (fun usable => ?_) ?_⟩
    · exact undecided ((decided_iff_usable declared' continues).2 (usable k inside))
    · rintro ⟨yes, no, -, output⟩
      cases failed.symm.trans output
  · refine ⟨?_,
      fun _ => ⟨yes, no, _, outs.1, outs.2, interleaved, fun k => getElem?_choices_eq_true_iff,
        interleaved.sublist_first, interleaved.sublist_second, interleaved.perm⟩,
      fun continues => iff_of_true (fun k inside => ?_) ⟨yes, no, outs⟩⟩
    · rintro ⟨k, inside, e, fails⟩
      obtain ⟨v, value⟩ := decided k inside
      cases fails.symm.trans value
    · exact (decided_iff_usable declared' continues).1 (decided k inside)

/-! ## A condition that fails beside one that holds -/

namespace Poll

/-- A condition on words. -/
def condition (left : Json) (kind operation : String) : Json :=
  .obj [("leftValue", left), ("rightValue", .str "yes"),
    ("operator", .obj [("type", .str kind), ("operation", .str operation)])]

/-- A node that continues on failures; its first condition fails and its second holds. -/
def node : Node :=
  { id := "1", name := "Poll", type := "if", onError := .continueRegularOutput
    parameters := [("conditions", .obj [("combinator", .str "or"),
      ("conditions",
        .arr [condition (.str "yes") "boolean" "true",
          condition (.str "yes") "string" "equals"])])] }

/-- Two items for the node. -/
def input : NodeInput :=
  { view := { workflow := { id := "w", name := "W", nodes := [node] }, node := node }
    inputs := [[{ json := [("by", .str "mail")] }, { json := [("by", .str "hand")] }]]
    sources := []
    resolver := ⟨Registry.builtin.spec?, ⟨1, []⟩⟩
    now := ⟨0, 0⟩ }

/-- Joined by `or`, the conditions hold for both items, though one condition fails. -/
theorem holds (k : Nat) : (input.as "if").get "conditions" k .extracted = .ok (.bool true) := by rfl

end Poll

/-- Both items of the poll are kept, and none is parted from them. -/
theorem poll_kept :
    Registry.builtin.spec? "filter" = some filter.spec ∧ Registry.builtin.spec? "if"
      = some branch.spec ∧
    filter.execute (Poll.input.as "filter") = .returns (.output [Poll.input.mainItems]) ∧
    branch.execute (Poll.input.as "if") = .returns (.output [Poll.input.mainItems, []]) := by
  have keeps : Registry.builtin.spec? "filter" = some filter.spec := by rfl
  have parts : Registry.builtin.spec? "if" = some branch.spec := by rfl
  obtain ⟨-, -, decided, -⟩ := items_parted Poll.input keeps parts
  obtain ⟨yes, no, choices, kept, parted, interleaved, chosen, -⟩ :=
    decided fun k _ => ⟨_, Poll.holds k⟩
  have first : choices[0]? = some true := (chosen 0).2 ⟨by decide, Poll.holds 0⟩
  have second : choices[1]? = some true := (chosen 1).2 ⟨by decide, Poll.holds 1⟩
  have sides : yes = Poll.input.mainItems ∧ no = [] := by
    cases interleaved with
    | first x rest =>
      cases rest with
      | first y rest =>
        cases rest
        exact ⟨rfl, rfl⟩
      | second y rest => cases second
    | second x rest => cases first
  obtain ⟨rfl, rfl⟩ := sides
  exact ⟨keeps, parts, kept, parted⟩

end NodeType

end Conveyor
