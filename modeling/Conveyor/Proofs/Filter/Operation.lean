/-
Operations of filters, their negations, and the operands they look at.

A table names tests with a sign, and of an operation and its negation it names one test with both
signs (`Turns`). So the two see the same operands, fail alike and decide opposites, as long as
nothing is said about null: a null decides most operations to be false, whatever their sign.

Whether an operation looks at its right operand is another matter. Those that have none do not look
at one, in most tables. The table of texts reads both operands as texts before it asks which test is
meant, so what has no text on the right stands in the way of a test that does not want it
(`unary_iff`).
-/
import Conveyor.Filter.Operator
import Mathlib.Tactic.FinCases

set_option autoImplicit false

namespace Conveyor.Filter

variable {kind operation : String} {left right right' : Json} {caseSensitive : Bool}
  {p : String × String}

/-! ## The tables -/

/-- The table of a kind has an operation. -/
def InTable (kind operation : String) : Prop :=
  match kind with
  | "string" => (TextTest.ofName? operation).isSome
  | "number" => (NumberTest.ofName? operation).isSome
  | "dateTime" => (InstantTest.ofName? operation).isSome
  | "boolean" => (BoolTest.ofName? operation).isSome
  | "array" => (ArrayTest.ofName? operation).isSome
  | "object" => (ObjectTest.ofName? operation).isSome
  | _ => False

/-- An operation of a kind: one in its table, or one that asks for a left value, which every kind
has. -/
def Known (kind operation : String) : Prop :=
  operation = "exists" ∨ operation = "notExists" ∨ InTable kind operation

/-- Operations and their negations. -/
def opposites : List (String × String) :=
  [("equals", "notEquals"), ("contains", "notContains"), ("startsWith", "notStartsWith"),
    ("endsWith", "notEndsWith"), ("regex", "notRegex"), ("empty", "notEmpty"),
    ("lengthEquals", "lengthNotEquals"), ("exists", "notExists"), ("true", "false")]

/-! ## Negations -/

/-- The test with the other sign. -/
def Signed.opposite {α : Type} (s : Signed α) : Signed α := ⟨s.test, !s.negated⟩

theorem Signed.decide_opposite {α : Type} (s : Signed α) (outcome : Bool) :
    s.opposite.decide outcome = !s.decide outcome := by
  cases outcome <;> cases h : s.negated <;> simp [Signed.decide, Signed.opposite, h]

/-- A table names the negation of an operation by the same test with the other sign. -/
def Turns {α : Type} (ofName? : String → Option (Signed α)) : Prop :=
  ∀ p ∈ opposites, ofName? p.2 = (ofName? p.1).map Signed.opposite

theorem TextTest.turns : Turns TextTest.ofName? := by
  intro p mem
  fin_cases mem <;> rfl

theorem NumberTest.turns : Turns NumberTest.ofName? := by
  intro p mem
  fin_cases mem <;> rfl

theorem InstantTest.turns : Turns InstantTest.ofName? := by
  intro p mem
  fin_cases mem <;> rfl

theorem BoolTest.turns : Turns BoolTest.ofName? := by
  intro p mem
  fin_cases mem <;> rfl

theorem ArrayTest.turns : Turns ArrayTest.ofName? := by
  intro p mem
  fin_cases mem <;> rfl

theorem ObjectTest.turns : Turns ObjectTest.ofName? := by
  intro p mem
  fin_cases mem <;> rfl

/-! ## Answers of the tables

Where null does not settle the matter, an operation answers what its test comes to on the operands,
with its sign. -/

/-- What a test of texts comes to. -/
def TextTest.held (t : TextTest) (caseSensitive : Bool) (left right : Json) :
    Except ConditionError Bool :=
  (toText left).bind fun l => (toText right).bind fun r => t.holds caseSensitive l r

/-- What a test of numbers comes to. -/
def NumberTest.held (t : NumberTest) (left right : Json) : Except ConditionError Bool :=
  (toNumber left).bind fun l => (toNumber right).map fun r => t.holds l r

/-- What a test of moments comes to. -/
def InstantTest.held (t : InstantTest) (left right : Json) : Except ConditionError Bool :=
  (toInstant left).bind fun l => (toInstant right).map fun r => t.holds l r

/-- What a test of booleans comes to. -/
def BoolTest.held (t : BoolTest) (left right : Json) : Except ConditionError Bool :=
  (toBool left).bind fun l => t.holds l right

/-- What a test of arrays comes to. -/
def ArrayTest.held (t : ArrayTest) (left right : Json) : Except ConditionError Bool :=
  match left with
  | .arr entries => t.holds entries right
  | v => .error (.wrongType v "array")

/-- What a test of objects comes to. -/
def ObjectTest.held (t : ObjectTest) (left right : Json) : Except ConditionError Bool :=
  match left with
  | .obj o => .ok (t.holds o right)
  | v => .error (.wrongType v "object")

/-- The answer to an operation, from what its test comes to. -/
def Signed.answer {α : Type} (s : Signed α) (held : α → Except ConditionError Bool) :
    Except ConditionError (Option Bool) :=
  (held s.test).map fun b => some (s.decide b)

theorem textOperation_eq {s : Signed TextTest} (named : TextTest.ofName? operation = some s) :
    textOperation operation left right caseSensitive = s.answer
      (·.held caseSensitive left right) := by
  simp only [textOperation, named, Signed.answer, TextTest.held]
  cases toText left with
  | error e => rfl
  | ok l => cases toText right <;> rfl

theorem numberOperation_eq {s : Signed NumberTest} (named : NumberTest.ofName? operation = some s)
    (someLeft : left.isNull = false) (someRight : right.isNull = false) :
    numberOperation operation left right = s.answer (·.held left right) := by
  simp only [numberOperation, named, someLeft, someRight, Bool.or_self, Bool.false_eq_true,
    if_false, Signed.answer, NumberTest.held]
  cases toNumber left with
  | error e => rfl
  | ok l => cases toNumber right <;> rfl

theorem instantOperation_eq {s : Signed InstantTest}
    (named : InstantTest.ofName? operation = some s) (someLeft : left.isNull = false)
    (someRight : right.isNull = false) :
    instantOperation operation left right = s.answer (·.held left right) := by
  simp only [instantOperation, named, someLeft, someRight, Bool.or_self, Bool.false_eq_true,
    if_false, Signed.answer, InstantTest.held]
  cases toInstant left with
  | error e => rfl
  | ok l => cases toInstant right <;> rfl

theorem boolOperation_eq {s : Signed BoolTest} (named : BoolTest.ofName? operation = some s)
    (someLeft : left.isNull = false) :
    boolOperation operation left right = s.answer (·.held left right) := by
  simp only [boolOperation, named, someLeft, Bool.false_eq_true, if_false, Signed.answer,
    BoolTest.held]
  cases toBool left <;> rfl

theorem arrayOperation_eq {s : Signed ArrayTest} (named : ArrayTest.ofName? operation = some s)
    (someLeft : left.isNull = false) : arrayOperation operation left right = s.answer
      (·.held left right) := by
  cases left with
  | null => cases someLeft
  | arr entries => simp only [arrayOperation, named, Signed.answer, ArrayTest.held]
  | _ => rfl

theorem objectOperation_eq {s : Signed ObjectTest} (named : ObjectTest.ofName? operation = some s)
    (someLeft : left.isNull = false) : objectOperation operation left right = s.answer
      (·.held left right) := by
  cases left with
  | null => cases someLeft
  | obj o =>
    simp only [objectOperation, named, Signed.answer, ObjectTest.held]
    rfl
  | _ => rfl

/-- Two operations answer opposites: both fail alike, or both answer. -/
def AnswerOpposites (answer answer' : Except ConditionError (Option Bool)) : Prop :=
  ∃ held : Except ConditionError Bool, answer = held.map some ∧ answer' = (held.map not).map some

/-- Signs make opposites: it does not matter what the tests of a table come to. -/
theorem answerOpposites_of_turns {α : Type} {ofName? : String → Option (Signed α)}
    (turns : Turns ofName?) {answer : String → Except ConditionError (Option Bool)}
    {held : α → Except ConditionError Bool}
    (answers : ∀ {operation s}, ofName? operation = some s → answer operation = s.answer held)
    (mem : p ∈ opposites) (listed : (ofName? p.1).isSome) :
    AnswerOpposites (answer p.1) (answer p.2) := by
  obtain ⟨s, named⟩ := Option.isSome_iff_exists.1 listed
  have turned : ofName? p.2 = some s.opposite := by rw [turns p mem, named]; rfl
  refine ⟨(held s.test).map s.decide, ?_, ?_⟩
  · rw [answers named, Signed.answer]
    cases held s.test <;> rfl
  · rw [answers turned, Signed.answer]
    change (held s.test).map _ = _
    cases held s.test with
    | error e => rfl
    | ok b => exact congrArg (Except.ok ∘ some) (s.decide_opposite b)

/-! ## Operations of all kinds -/

/-- Of the operations with a negation, numbers have equality only. -/
theorem eq_equals_of_number (mem : p ∈ opposites) (listed : (NumberTest.ofName? p.1).isSome) :
    p.1 = "equals" := by
  fin_cases mem
  · rfl
  all_goals cases listed

/-- Of the operations with a negation, moments have equality only. -/
theorem eq_equals_of_instant (mem : p ∈ opposites) (listed : (InstantTest.ofName? p.1).isSome) :
    p.1 = "equals" := by
  fin_cases mem
  · rfl
  all_goals cases listed

/-- **In every table an operation and its negation answer opposites**, if neither operand settles
the matter by being null. -/
theorem tableOperation_opposite (mem : p ∈ opposites) (listed : InTable kind p.1)
    (someLeft : left.isNull = false) (someRight : p.1 = "equals" → right.isNull = false) :
    AnswerOpposites (tableOperation kind p.1 left right caseSensitive)
      (tableOperation kind p.2 left right caseSensitive) := by
  unfold InTable at listed
  unfold tableOperation
  split at listed
  · exact answerOpposites_of_turns TextTest.turns textOperation_eq mem listed
  -- Numbers and moments take a null on the right for false, but what has a negation there does not
  -- come to that.
  · have someRight := someRight (eq_equals_of_number mem listed)
    exact answerOpposites_of_turns NumberTest.turns
      (numberOperation_eq · someLeft someRight) mem listed
  · have someRight := someRight (eq_equals_of_instant mem listed)
    exact answerOpposites_of_turns InstantTest.turns
      (instantOperation_eq · someLeft someRight) mem listed
  · exact answerOpposites_of_turns BoolTest.turns (boolOperation_eq · someLeft) mem listed
  · exact answerOpposites_of_turns ArrayTest.turns (arrayOperation_eq · someLeft) mem listed
  · exact answerOpposites_of_turns ObjectTest.turns (objectOperation_eq · someLeft) mem listed
  · exact listed.elim

/-- What is said before the tables are asked is negated with the operation. -/
theorem beforeTables_opposite (mem : p ∈ opposites) :
    beforeTables p.2 left right = (beforeTables p.1 left right).map not := by
  unfold beforeTables
  fin_cases mem
  · simp only
    split <;> rfl
  -- Of the others, only the question for a left value is settled before.
  all_goals first | rfl | exact congrArg some (Bool.not_not _).symm

/-- A null on the right settles an equality before the tables are asked. -/
theorem right_of_equals (silent : beforeTables operation left right = none)
    (equality : operation = "equals") :
    right.isNull = false := by
  subst equality
  simp only [beforeTables] at silent
  split at silent
  · cases silent
  · rename_i some
    exact (Bool.or_eq_false_iff.1 (Bool.not_eq_true _ ▸ some)).2

/-- **An operation and its negation decide opposites.** For an operation that a kind has, on a left
value that is not null, the negation fails as the operation does, and answers the opposite
otherwise. -/
theorem evaluate_opposite (kind : String) (p : String × String) (left right : Json)
    (caseSensitive : Bool) (mem : p ∈ opposites) (known : Known kind p.1)
    (someLeft : left ≠ .null) :
    evaluate kind p.2 left right caseSensitive
      = (evaluate kind p.1 left right caseSensitive).map not := by
  have someLeft : left.isNull = false := by
    cases left with
    | null => exact absurd rfl someLeft
    | _ => rfl
  unfold evaluate
  rw [beforeTables_opposite mem]
  cases silent : beforeTables p.1 left right with
  | some b => rfl
  | none =>
    -- What every kind has is said by now, so it is an operation of the table.
    have listed : InTable kind p.1 := by
      rcases known with exists_ | notExists | listed
      · rw [exists_] at silent
        cases silent
      · rw [notExists] at silent
        cases silent
      · exact listed
    obtain ⟨held, answer, answer'⟩ :=
      tableOperation_opposite mem listed someLeft (right_of_equals silent)
    rw [answer, answer']
    cases held <;> rfl

/-- What a text does not contain, and what cannot be looked for in it. -/
theorem notContains_haystack :
    (("contains", "notContains") ∈ opposites ∧ Known "string" "contains" ∧
      Json.str "haystack" ≠ .null) ∧
    evaluate "string" "notContains" (.str "haystack") (.str "st") true = .ok false ∧
    evaluate "string" "notContains" (.str "haystack") (.arr []) true = .error
      (.wrongType (.arr []) "string") := by
  have mem : ("contains", "notContains") ∈ opposites := by decide
  have known : Known "string" "contains" := .inr (.inr rfl)
  have opposite := fun right =>
    evaluate_opposite "string" ("contains", "notContains") (.str "haystack") right true
      mem known nofun
  exact ⟨⟨mem, known, nofun⟩, (opposite (.str "st")).trans rfl, (opposite (.arr [])).trans rfl⟩

/-! ## Operations without a right operand -/

/-- The operations that have no right operand. -/
def unary : List String := ["exists", "notExists", "empty", "notEmpty", "true", "false"]

/-- A value that has a text: no array, and no object. -/
def Textual : Json → Prop
  | .arr _ | .obj _ => False
  | _ => True

theorem toText_of_textual {v : Json} (textual : Textual v) : toText v = .ok v.plainText := by
  cases v with
  | arr xs => exact textual.elim
  | obj o => exact textual.elim
  | _ => rfl

theorem toText_of_not_textual {v : Json} (composed : ¬Textual v) :
    toText v = .error (.wrongType v "string") := by
  cases v with
  | arr xs => rfl
  | obj o => rfl
  | _ => exact absurd trivial composed

/-- Whether a text is empty is asked when both operands have been read as texts. -/
theorem evaluate_text_empty (emptiness : operation = "empty" ∨ operation = "notEmpty") :
    evaluate "string" operation left right caseSensitive =
      (toText left).bind fun l => (toText right).map fun _ =>
        (folded caseSensitive l).isEmpty != (operation == "notEmpty") := by
  rcases emptiness with rfl | rfl
  all_goals
    simp only [evaluate, beforeTables, tableOperation, textOperation]
    cases toText left with
    | error e => rfl
    | ok l => cases toText right <;> rfl

/-- Two values are read as texts alike if they are the same, or have texts. -/
theorem map_toText_eq_iff (b : Bool) :
    ((toText right).map fun _ => b) = ((toText right').map fun _ => b) ↔
      right = right' ∨ Textual right ∧ Textual right' := by
  by_cases textual : Textual right <;> by_cases textual' : Textual right'
  · rw [toText_of_textual textual, toText_of_textual textual']
    exact iff_of_true rfl (.inr ⟨textual, textual'⟩)
  · rw [toText_of_textual textual, toText_of_not_textual textual']
    refine iff_of_false nofun ?_
    rintro (rfl | both)
    · exact textual' textual
    · exact textual' both.2
  · rw [toText_of_not_textual textual, toText_of_textual textual']
    refine iff_of_false nofun ?_
    rintro (rfl | both)
    · exact textual textual'
    · exact textual both.1
  · rw [toText_of_not_textual textual, toText_of_not_textual textual']
    simp only [Except.map, Except.error.injEq, ConditionError.wrongType.injEq, and_true, textual,
      false_and, or_false]

section Unary

variable (single : operation ∈ unary)

include single

/-! Of the operations without a right operand, a table names by one test those that it has. -/

theorem emptiness_of_unary (listed : (TextTest.ofName? operation).isSome) :
    operation = "empty" ∨ operation = "notEmpty" := by
  fin_cases single
  · cases listed
  · cases listed
  · exact .inl rfl
  · exact .inr rfl
  · cases listed
  · cases listed

theorem NumberTest.ofName?_unary : NumberTest.ofName? operation = none := by
  fin_cases single <;> rfl

theorem InstantTest.ofName?_unary : InstantTest.ofName? operation = none := by
  fin_cases single <;> rfl

theorem BoolTest.eq_isTrue {s : Signed BoolTest} (named : BoolTest.ofName? operation = some s) :
    s.test = .isTrue := by
  fin_cases single <;> cases named <;> rfl

theorem ArrayTest.eq_empty {s : Signed ArrayTest} (named : ArrayTest.ofName? operation = some s) :
    s.test = .empty := by
  fin_cases single <;> cases named <;> rfl

theorem ObjectTest.eq_empty {s : Signed ObjectTest}
    (named : ObjectTest.ofName? operation = some s) :
    s.test = .empty := by
  fin_cases single <;> cases named <;> rfl

theorem beforeTables_unary :
    beforeTables operation left right = beforeTables operation left right' := by
  fin_cases single <;> rfl

/-- Outside of the table of texts, a test without a right operand does not look at one. -/
theorem tableOperation_unary (listed : InTable kind operation)
    (other : kind = "string" → ¬(operation = "empty" ∨ operation = "notEmpty")) :
    tableOperation kind operation left right caseSensitive =
      tableOperation kind operation left right' caseSensitive := by
  unfold InTable at listed
  unfold tableOperation
  split at listed
  · exact absurd (emptiness_of_unary single listed) (other rfl)
  · rw [NumberTest.ofName?_unary single] at listed
    cases listed
  · rw [InstantTest.ofName?_unary single] at listed
    cases listed
  · obtain ⟨s, named⟩ := Option.isSome_iff_exists.1 listed
    simp only [boolOperation, named, BoolTest.eq_isTrue single named, BoolTest.holds]
  · obtain ⟨s, named⟩ := Option.isSome_iff_exists.1 listed
    simp only [arrayOperation, named, ArrayTest.eq_empty single named, ArrayTest.holds]
  · obtain ⟨s, named⟩ := Option.isSome_iff_exists.1 listed
    simp only [objectOperation, named, Option.map_some, ObjectTest.eq_empty single named,
      ObjectTest.holds]
  · exact listed.elim

theorem evaluate_unary (known : Known kind operation)
    (other : kind = "string" → ¬(operation = "empty" ∨ operation = "notEmpty")) :
    evaluate kind operation left right caseSensitive
      = evaluate kind operation left right' caseSensitive := by
  rcases known with rfl | rfl | listed
  · rfl
  · rfl
  · rw [evaluate, evaluate, beforeTables_unary single, tableOperation_unary single listed other]

end Unary

/-- **Which right operands an operation without one looks at.** It answers alike whatever stands on
the right, but for the emptiness of a text: there a value on the right that has no text is an error,
which tells it from every other value. -/
theorem unary_iff (kind operation : String) (left right right' : Json) (caseSensitive : Bool)
    (known : Known kind operation) (single : operation ∈ unary) :
    evaluate kind operation left right caseSensitive
      = evaluate kind operation left right' caseSensitive ↔
      (kind = "string" → operation = "empty" ∨ operation = "notEmpty" → Textual left →
        right = right' ∨ Textual right ∧ Textual right') := by
  by_cases emptiness : kind = "string" ∧ (operation = "empty" ∨ operation = "notEmpty")
  · obtain ⟨rfl, emptiness⟩ := emptiness
    rw [evaluate_text_empty emptiness, evaluate_text_empty emptiness]
    by_cases textual : Textual left
    · rw [toText_of_textual textual]
      exact (map_toText_eq_iff _).trans ⟨fun alike _ _ _ => alike,
        fun alike => alike rfl emptiness textual⟩
    · rw [toText_of_not_textual textual]
      exact iff_of_true rfl fun _ _ has => absurd has textual
  · refine iff_of_true (evaluate_unary single known fun text empty => emptiness ⟨text, empty⟩) ?_
    exact fun text empty => absurd ⟨text, empty⟩ emptiness

/-- A value that was left on the right of a text does not matter while it has a text itself. -/
theorem leftover_harmless : (Known "string" "empty" ∧ "empty" ∈ unary) ∧
    evaluate "string" "empty" (.str "") (.str "leftover") true = evaluate "string" "empty"
      (.str "") .null true := by
  have known : Known "string" "empty" := .inr (.inr rfl)
  have single : "empty" ∈ unary := by decide
  refine ⟨⟨known, single⟩,
    (unary_iff "string" "empty" (.str "") (.str "leftover") .null true known single).2 ?_⟩
  exact fun _ _ _ => .inr ⟨trivial, trivial⟩

/-- **A leftover that matters.** Whether a text is empty cannot be told with an array on the
right. -/
theorem leftover_in_the_way :
    evaluate "string" "empty" (.str "") .null true = .ok true ∧
    evaluate "string" "empty" (.str "") (.arr []) true = .error (.wrongType (.arr []) "string") :=
  ⟨rfl, rfl⟩

end Conveyor.Filter
