/-
How the conditions of a filter come together.

A filter decides all of its conditions before it joins them. Where failing conditions are tolerated
the outcomes are those of the conditions, with false for each that fails, so joining them is a
conjunction or a disjunction over the conditions, in any order. Where they are not, the first
condition that fails is what the filter reports, also where a condition before or behind it would
have settled the matter, and without one the outcomes are the same as if failures were tolerated.
-/
import Conveyor.Filter.Basic
import Mathlib.Data.List.Perm.Basic

set_option autoImplicit false

namespace Conveyor.Filter

variable {caseSensitive tolerant : Bool} {itemIndex index start : Nat} {source : ConditionError}
  {c : Condition} {cs : List Condition}

/-! ## Outcomes of conditions -/

/-- A condition is decided, and holds. -/
def Condition.Passes (c : Condition) (caseSensitive : Bool) : Prop :=
  c.decide caseSensitive = .ok true

/-- The outcome of a condition, false if it fails. -/
def Condition.outcome (c : Condition) (caseSensitive : Bool) : Bool :=
  match c.decide caseSensitive with
  | .ok b => b
  | .error _ => false

theorem Condition.outcome_eq_true_iff :
    c.outcome caseSensitive = true ↔ c.Passes caseSensitive := by
  rw [outcome, Passes]
  cases c.decide caseSensitive with
  | ok b => exact Except.ok.injEq b true ▸ Iff.rfl
  | error e => exact iff_of_false nofun nofun

/-- The condition at an index fails, and all before it are decided. -/
structure FirstFailure (caseSensitive : Bool) (cs : List Condition) (index : Nat)
    (source : ConditionError) : Prop where
  fails : ∃ c, cs[index]? = some c ∧ c.decide caseSensitive = .error source
  before : ∀ j < index, ∃ c b, cs[j]? = some c ∧ c.decide caseSensitive = .ok b

theorem not_firstFailure_nil : ¬FirstFailure caseSensitive [] index source :=
  fun ⟨⟨_, found, _⟩, _⟩ => nomatch found

theorem firstFailure_cons_of_error {e : ConditionError}
    (failed : c.decide caseSensitive = .error e) :
    FirstFailure caseSensitive (c :: cs) index source ↔ index = 0 ∧ source = e := by
  constructor
  · rintro ⟨⟨d, found, fails⟩, before⟩
    cases index with
    | zero =>
      obtain rfl := Option.some.inj found
      exact ⟨rfl, Except.error.inj (fails.symm.trans failed)⟩
    | succ index =>
      obtain ⟨d, b, found, decided⟩ := before 0 (Nat.succ_pos index)
      obtain rfl := Option.some.inj found
      cases decided.symm.trans failed
  · rintro ⟨rfl, rfl⟩
    exact ⟨⟨c, rfl, failed⟩, nofun⟩

theorem firstFailure_cons_of_ok {b : Bool} (decided : c.decide caseSensitive = .ok b) :
    FirstFailure caseSensitive (c :: cs) index source ↔
      ∃ later, index = later + 1 ∧ FirstFailure caseSensitive cs later source := by
  constructor
  · rintro ⟨⟨d, found, fails⟩, before⟩
    cases index with
    | zero =>
      obtain rfl := Option.some.inj found
      cases decided.symm.trans fails
    | succ later =>
      exact ⟨later, rfl, ⟨d, found, fails⟩,
        fun j earlier => before (j + 1) (Nat.succ_lt_succ earlier)⟩
  · rintro ⟨later, rfl, ⟨d, found, fails⟩, before⟩
    refine ⟨⟨d, found, fails⟩, fun j earlier => ?_⟩
    cases j with
    | zero => exact ⟨c, b, rfl, decided⟩
    | succ j => exact before j (Nat.lt_of_succ_lt_succ earlier)

theorem exists_firstFailure_iff :
    (∃ index source, FirstFailure caseSensitive cs index source) ↔
      ∃ c ∈ cs, ∃ source, c.decide caseSensitive = .error source := by
  induction cs with
  | nil => exact iff_of_false (fun ⟨_, _, first⟩ => not_firstFailure_nil first) nofun
  | cons c cs ih =>
    cases decided : c.decide caseSensitive with
    | error e =>
      exact iff_of_true ⟨0, e, (firstFailure_cons_of_error decided).2 ⟨rfl, rfl⟩⟩ ⟨c,
        List.mem_cons_self, e, decided⟩
    | ok b =>
      simp only [firstFailure_cons_of_ok decided]
      constructor
      · rintro ⟨_, source, later, -, first⟩
        obtain ⟨d, mem, failed⟩ := ih.1 ⟨later, source, first⟩
        exact ⟨d, List.mem_cons_of_mem c mem, failed⟩
      · rintro ⟨d, mem, failed⟩
        rcases List.mem_cons.1 mem with rfl | mem
        · obtain ⟨source, failed⟩ := failed
          cases decided.symm.trans failed
        · obtain ⟨later, source, first⟩ := ih.2 ⟨d, mem, failed⟩
          exact ⟨later + 1, source, later, rfl, first⟩

/-! ## The loop over the conditions -/

theorem map_eq_error_iff {α β ε : Type} {f : α → β} {x : Except ε α} {e : ε} :
    x.map f = .error e ↔ x = .error e := by
  cases x with
  | ok a => exact iff_of_false nofun nofun
  | error e' => rw [Except.map, Except.error.injEq, Except.error.injEq]

/-- Where no condition fails, or failing ones are tolerated, the outcomes are those of the
conditions. -/
theorem outcomes_eq_ok (ok : tolerant = true ∨ ∀ c ∈ cs, ∃ b, c.decide caseSensitive = .ok b) :
    outcomes caseSensitive itemIndex tolerant start cs = .ok
      (cs.map (·.outcome caseSensitive)) := by
  induction cs generalizing start with
  | nil => rfl
  | cons c cs ih =>
    have rest : outcomes caseSensitive itemIndex tolerant (start + 1) cs
        = .ok (cs.map (·.outcome caseSensitive)) :=
      ih (ok.imp_right fun decided d mem => decided d (List.mem_cons_of_mem c mem))
    rw [outcomes, rest, List.map_cons, Condition.outcome]
    cases decided : c.decide caseSensitive with
    | ok b => rfl
    | error e =>
      have tolerated : tolerant = true := by
        refine ok.resolve_right fun all => ?_
        obtain ⟨b, other⟩ := all c List.mem_cons_self
        cases decided.symm.trans other
      rw [tolerated]
      rfl

/-- **The loop fails exactly with the first condition that fails.** -/
theorem outcomes_eq_error_iff {e : Error} :
    outcomes caseSensitive itemIndex false start cs = .error e ↔
      ∃ index source, FirstFailure caseSensitive cs index source ∧ e = .condition
        (start + index) itemIndex source := by
  induction cs generalizing start with
  | nil => exact iff_of_false nofun fun ⟨_, _, first, _⟩ => not_firstFailure_nil first
  | cons c cs ih =>
    rw [outcomes]
    cases decided : c.decide caseSensitive with
    | error source =>
      simp only [firstFailure_cons_of_error decided]
      constructor
      · intro failed
        exact ⟨0, source, ⟨rfl, rfl⟩, (Except.error.inj failed).symm⟩
      · rintro ⟨_, _, ⟨rfl, rfl⟩, rfl⟩
        rfl
    | ok b =>
      -- Behind a condition that is decided, the loop counts on from the next number.
      simp only [firstFailure_cons_of_ok decided, map_eq_error_iff, ih]
      constructor
      · rintro ⟨index, source, first, rfl⟩
        exact ⟨index + 1, source, ⟨index, rfl, first⟩, by rw [Nat.add_assoc, Nat.add_comm 1]⟩
      · rintro ⟨_, source, ⟨index, rfl, first⟩, rfl⟩
        exact ⟨index, source, first, by rw [Nat.add_assoc, Nat.add_comm 1]⟩

/-! ## Joining -/

theorem join_all_eq_true_iff :
    Combinator.all.join (cs.map (·.outcome caseSensitive)) = true ↔
      ∀ c ∈ cs, c.Passes caseSensitive := by
  simp only [Combinator.join, List.all_map, List.all_eq_true, Function.comp_apply, id_eq,
    Condition.outcome_eq_true_iff]

theorem join_any_eq_true_iff :
    Combinator.any.join (cs.map (·.outcome caseSensitive)) = true ↔
      ∃ c ∈ cs, c.Passes caseSensitive := by
  simp only [Combinator.join, List.any_map, List.any_eq_true, Function.comp_apply, id_eq,
    Condition.outcome_eq_true_iff]

/-- Joining does not look at the order of the outcomes. -/
theorem Combinator.join_perm (join : Combinator) {bs bs' : List Bool} (perm : bs.Perm bs') :
    join.join bs = join.join bs' := by
  cases join with
  | all => exact perm.all_eq
  | any => exact perm.any_eq

/-- The first condition of a filter that fails. -/
abbrev FirstFails (f : Filter) (index : Nat) (source : ConditionError) : Prop :=
  FirstFailure f.caseSensitive f.conditions index source

variable {f : Filter} {join : Combinator}

theorem decide_of_named (named : Combinator.ofName? f.combinator = some join) :
    f.decide itemIndex tolerant = (outcomes f.caseSensitive itemIndex tolerant 0 f.conditions).map
      join.join := by
  rw [Filter.decide, named]

/-- With failures tolerated, or without any, a filter decides. -/
theorem decide_eq_ok (named : Combinator.ofName? f.combinator = some join)
    (ok : tolerant = true ∨ ∀ c ∈ f.conditions, ∃ b, c.decide f.caseSensitive = .ok b) :
    f.decide itemIndex tolerant = .ok
      (join.join (f.conditions.map (·.outcome f.caseSensitive))) := by
  rw [decide_of_named named, outcomes_eq_ok ok]
  rfl

/-- With failures not tolerated, a filter reports the first. -/
theorem decide_eq_error_iff {e : Error} (named : Combinator.ofName? f.combinator = some join) :
    f.decide itemIndex false = .error e ↔
      ∃ index source, f.FirstFails index source ∧ e = .condition index itemIndex source := by
  rw [decide_of_named named, map_eq_error_iff, outcomes_eq_error_iff]
  simp only [Nat.zero_add]

theorem exists_decide_eq_error_iff (named : Combinator.ofName? f.combinator = some join) :
    (∃ e, f.decide itemIndex false = .error e) ↔
      ∃ c ∈ f.conditions, ∃ source, c.decide f.caseSensitive = .error source := by
  rw [← exists_firstFailure_iff]
  constructor
  · rintro ⟨e, failed⟩
    obtain ⟨index, source, first, -⟩ := (decide_eq_error_iff named).1 failed
    exact ⟨index, source, first⟩
  · rintro ⟨index, source, first⟩
    exact ⟨_, (decide_eq_error_iff named).2 ⟨index, source, first, rfl⟩⟩

/-- What a filter decides, it decides with failures tolerated too. -/
theorem decide_tolerant_of_strict {b : Bool} (named : Combinator.ofName? f.combinator = some join)
    (decided : f.decide itemIndex false = .ok b) : f.decide itemIndex true = .ok b := by
  -- No condition fails, or it would be reported; so both decide from the same outcomes.
  have ok : ∀ c ∈ f.conditions, ∃ b, c.decide f.caseSensitive = .ok b := by
    intro c mem
    cases single : c.decide f.caseSensitive with
    | ok b => exact ⟨b, rfl⟩
    | error source =>
      obtain ⟨e, failed⟩ := (exists_decide_eq_error_iff named).2 ⟨c, mem, source, single⟩
      cases decided.symm.trans failed
  exact (decide_eq_ok named (.inl rfl)).trans ((decide_eq_ok named (.inr ok)).symm.trans decided)

/-- **What a filter decides.** With failures tolerated, a filter that joins by `and` holds if all of
its conditions pass, and one that joins by `or` if one does, in whatever order they stand. Without,
it fails exactly if a condition does, with the first that does, and decides the same otherwise. -/
theorem decide_joined (f : Filter) (itemIndex : Nat)
    (known : f.combinator = "and" ∨ f.combinator = "or") : (∃ b, f.decide itemIndex true = .ok b ∧
      (f.combinator = "and" → (b = true ↔ ∀ c ∈ f.conditions, c.Passes f.caseSensitive)) ∧
      (f.combinator = "or" → (b = true ↔ ∃ c ∈ f.conditions, c.Passes f.caseSensitive))) ∧
    (∀ e, f.decide itemIndex false = .error e ↔
      ∃ index source, f.FirstFails index source ∧ e = .condition index itemIndex source) ∧
    ((∃ e, f.decide itemIndex false = .error e) ↔
      ∃ c ∈ f.conditions, ∃ source, c.decide f.caseSensitive = .error source) ∧
    (∀ b, f.decide itemIndex false = .ok b → f.decide itemIndex true = .ok b) ∧
    ∀ cs, cs.Perm f.conditions →
      ({ f with conditions := cs } : Filter).decide itemIndex true = f.decide itemIndex true := by
  -- Conditions are joined by one of two combinators, each with its reading; the rest holds for
  -- both.
  obtain ⟨join, named⟩ : ∃ join, Combinator.ofName? f.combinator = some join := by
    rcases known with name | name <;> exact ⟨_, by rw [name]; rfl⟩
  refine ⟨⟨_, decide_eq_ok named (.inl rfl), fun name => ?_, fun name => ?_⟩,
    fun e => decide_eq_error_iff named, exists_decide_eq_error_iff named,
    fun b => decide_tolerant_of_strict named, fun cs perm => ?_⟩
  · rw [name] at named
    obtain rfl : Combinator.all = join := Option.some.inj named
    exact join_all_eq_true_iff
  · rw [name] at named
    obtain rfl : Combinator.any = join := Option.some.inj named
    exact join_any_eq_true_iff
  · rw [decide_eq_ok named (.inl rfl),
      decide_eq_ok (f := { f with conditions := cs }) named (.inl rfl), join.join_perm (perm.map _)]

/-! ## A failure that does not matter for the outcome -/

/-- A boolean that has to be true. -/
def isTrue (left : Json) : Condition := ⟨none, left, .null, ⟨"boolean", "true", true⟩⟩

/-- Three conditions, of which the first settles the matter and the second fails. -/
def vote : Filter :=
  ⟨true, [isTrue (.bool true), isTrue (.str "maybe"), isTrue (.bool false)], "or"⟩

/-- The vote is settled by its first condition, and reports the second unless failures are
tolerated. -/
theorem vote_settled : vote.combinator = "or" ∧ vote.decide 7 true = .ok true ∧
    vote.decide 7 false = .error (.condition 1 7 (.wrongType (.str "maybe") "boolean")) := by
  obtain ⟨⟨b, tolerated, -, some⟩, failing, -⟩ := decide_joined vote 7 (.inr rfl)
  have settled : b = true := (some rfl).2 ⟨_, List.mem_cons_self, rfl⟩
  refine ⟨rfl, settled ▸ tolerated, (failing _).2 ⟨1, _, ⟨⟨_, rfl, rfl⟩, fun j earlier => ?_⟩, rfl⟩⟩
  obtain rfl : j = 0 := by omega
  exact ⟨_, _, rfl, rfl⟩

end Conveyor.Filter
