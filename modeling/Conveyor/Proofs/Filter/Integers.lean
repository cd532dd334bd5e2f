/-
How integers are compared.

Numbers are compared as floats, so two integers are taken for the same exactly if they are once all
but their 53 leading bits are rounded away (`Number.SameNearest`), and with them the arrays and
objects they stand in. This is equality of the integers as long as one of the two is below `2 ^ 53`
in magnitude (`alike_small_iff`); the next integer after `2 ^ 53` is already taken for it.
Conditions on numbers and on arrays and the display rules of parameters ask the same question.
-/
import Conveyor.Filter.Operator
import Conveyor.Parameter.Display
import Conveyor.Proofs.Decimal.Nearest
import Conveyor.Proofs.Json.Equivalence

set_option autoImplicit false

namespace Conveyor

namespace Json

/-- An integer of 64 bits, signed or not. -/
def Number.Whole : Number → Prop
  | .int i => minInt ≤ i ∧ i ≤ maxInt
  | .float _ => False

/-- An integer below `2 ^ 53` in magnitude. -/
def Number.Small : Number → Prop
  | .int i => i.natAbs < 2 ^ 53
  | .float _ => False

/-- Integers that are the same when they are rounded to 53 bits. -/
def Number.SameNearest : Number → Number → Prop
  | .int a, .int b => Decimal.nearestInt a = Decimal.nearestInt b
  | _, _ => False

/-- A value with no other numbers than integers of 64 bits. -/
def Integral (x : Json) : Prop := x.Proper Number.Whole

variable {a b : Int} {m n : Number} {x y : Json}

theorem Number.sameFloat_iff (hm : m.Whole) (hn : n.Whole) : m.SameFloat n ↔ m.SameNearest n := by
  cases m with
  | float x => exact hm.elim
  | int a =>
    cases n with
    | float x => exact hn.elim
    | int b =>
      have rangeA : minInt ≤ a ∧ a ≤ maxInt := hm
      have rangeB : minInt ≤ b ∧ b ≤ maxInt := hn
      rw [minInt, maxInt] at rangeA rangeB
      exact Decimal.beq_ofInt_iff (by omega) (by omega)

theorem Number.sameNearest_small_iff (small : m.Small) (hn : n.Whole) :
    m.SameNearest n ↔ m = n := by
  cases m with
  | float x => exact small.elim
  | int a =>
    cases n with
    | float x => exact hn.elim
    | int b =>
      rw [Number.int.injEq]
      exact Decimal.nearestInt_inj_of_small small

/-- Values of integers are equal if their integers, place by place, are rounded to the same ones. -/
theorem equal_integral_iff (hx : x.Integral) (hy : y.Integral) :
    equal x y = true ↔ x.Alike Number.SameNearest y :=
  (equal_iff_alike hx).trans (Alike.congr (fun _ _ hm hn => Number.sameFloat_iff hm hn) hx hy)

/-- Small integers are told apart from all others. -/
theorem alike_small_iff (small : x.Proper Number.Small) (hy : y.Integral) :
    x.Alike Number.SameNearest y ↔ x.Alike (· = ·) y :=
  Alike.congr (fun _ _ hm hn => Number.sameNearest_small_iff hm hn) small hy

theorem integral_ofInt (range : minInt ≤ a ∧ a ≤ maxInt) : (ofInt a).Integral := .num range

theorem equal_ofInt_iff (ha : minInt ≤ a ∧ a ≤ maxInt) (hb : minInt ≤ b ∧ b ≤ maxInt) :
    equal (ofInt a) (ofInt b) = true ↔ Decimal.nearestInt a = Decimal.nearestInt b := by
  rw [equal_integral_iff (integral_ofInt ha) (integral_ofInt hb)]
  constructor
  · intro alike
    cases alike with
    | num related => exact related
  · intro same
    exact .num same

/-- What is found in a list of values. -/
theorem any_equal_iff {xs : List Json} (hxs : ∀ x ∈ xs, x.Integral) (hy : y.Integral) :
    xs.any (equal · y) = true ↔ ∃ x ∈ xs, x.Alike Number.SameNearest y := by
  rw [List.any_eq_true]
  exact exists_congr fun x => and_congr_right fun mem => equal_integral_iff (hxs x mem) hy

end Json

namespace Filter

variable {a b : Int} {caseSensitive : Bool}

/-- Equality of numbers, as a condition, is equality of values. -/
theorem evaluate_number_equals :
    evaluate "number" "equals" (Json.ofInt a) (Json.ofInt b) caseSensitive
    = .ok (Json.equal (Json.ofInt a) (Json.ofInt b)) := by
  show (Except.ok ((Float.ofInt a == Float.ofInt b) != false) : Except ConditionError Bool) = _
  rw [Bool.bne_false]
  rfl

theorem evaluate_array_contains (xs : List Json) (y : Json) :
    evaluate "array" "contains" (.arr xs) y caseSensitive = .ok (xs.any (Json.equal · y)) := by
  show (Except.ok ((xs.any (Json.equal · y)) != false) : Except ConditionError Bool) = _
  rw [Bool.bne_false]

/-- **Integers are compared by their 53 leading bits**, alone and in arrays and objects of any
depth, by conditions and by display rules. So they are compared exactly where one of the two is
below `2 ^ 53` in magnitude. -/
theorem integers_compared {x y : Json} {xs : List Json} {s : Parameter.Siblings}
    {rule : String × List Json} (ha : Json.minInt ≤ a ∧ a ≤ Json.maxInt)
    (hb : Json.minInt ≤ b ∧ b ≤ Json.maxInt) (hx : x.Integral) (hy : y.Integral)
    (hxs : ∀ x ∈ xs, x.Integral) (allowed : ∀ v ∈ rule.2, v.Integral)
    (current : (s.valueOf rule.1).Integral) :
    (Json.equal (.ofInt a) (.ofInt b) = true ↔ Decimal.nearestInt a = Decimal.nearestInt b) ∧
      (Json.equal x y = true ↔ x.Alike Json.Number.SameNearest y) ∧
      evaluate "number" "equals" (.ofInt a) (.ofInt b) caseSensitive
        = .ok (Decimal.nearestInt a == Decimal.nearestInt b) ∧
      (∃ found, evaluate "array" "contains" (.arr xs) y caseSensitive = .ok found ∧
        (found = true ↔ ∃ x ∈ xs, x.Alike Json.Number.SameNearest y)) ∧
      (s.hasOneOf rule = true ↔ ∃ v ∈ rule.2, v.Alike Json.Number.SameNearest (s.valueOf rule.1)) ∧
      (a.natAbs < 2 ^ 53 → (Decimal.nearestInt a = Decimal.nearestInt b ↔ a = b)) ∧
      (x.Proper Json.Number.Small → (x.Alike Json.Number.SameNearest y ↔ x.Alike (· = ·) y)) := by
  have numbers := Json.equal_ofInt_iff ha hb
  refine ⟨numbers, Json.equal_integral_iff hx hy, ?_,
    ⟨_, evaluate_array_contains xs y, Json.any_equal_iff hxs hy⟩,
    Json.any_equal_iff allowed current, Decimal.nearestInt_inj_of_small,
    fun small => Json.alike_small_iff small hy⟩
  rw [evaluate_number_equals, Bool.eq_iff_iff.2 (numbers.trans beq_iff_eq.symm)]

/-- A list of an integer, and a display rule that looks for it. -/
theorem integers_compared_ten :
    let rule : String × List Json := ("size", [.ofInt 10])
    let s : Parameter.Siblings := ⟨[], [("size", .ofInt (2 ^ 53 + 1))], 1⟩
    evaluate "number" "equals" (.ofInt 10) (.ofInt (2 ^ 53 + 1)) true = .ok false ∧
      evaluate "array" "contains" (.arr [.ofInt 10]) (.ofInt (2 ^ 53 + 1)) true = .ok false ∧
      s.hasOneOf rule = false := by
  intro rule s
  have hTen : (Json.ofInt 10).Integral := Json.integral_ofInt (by decide)
  have hLarge : (Json.ofInt (2 ^ 53 + 1)).Integral := Json.integral_ofInt (by decide)
  have current : s.valueOf "size" = .ofInt (2 ^ 53 + 1) := by cbv
  have entries : ∀ x ∈ [Json.ofInt 10], x.Integral := fun x mem => List.mem_singleton.1 mem ▸ hTen
  obtain ⟨-, -, number, ⟨found, array, contains⟩, display, -⟩ :=
    @integers_compared 10 (2 ^ 53 + 1) true _ _ _ s rule
    (by decide) (by decide) hTen hLarge entries entries (current ▸ hLarge)
  -- The two integers are rounded to different floats, so no entry is taken for the one that is
  -- looked for.
  have none : ¬∃ x ∈ [Json.ofInt 10], x.Alike Json.Number.SameNearest (.ofInt (2 ^ 53 + 1)) := by
    rintro ⟨x, mem, alike⟩
    rw [List.mem_singleton.1 mem] at alike
    cases alike with
    | num related =>
      have apart : Decimal.nearestInt 10 ≠ Decimal.nearestInt (2 ^ 53 + 1) := by decide
      exact apart related
  refine ⟨number, ?_, Bool.eq_false_iff.2 (mt display.1 (current ▸ none))⟩
  rw [array, Bool.eq_false_iff.2 (mt contains.1 none)]

/-- Two neighbours that are taken for the same integer. -/
theorem neighbours_confused :
    let a : Json := .ofInt (2 ^ 53)
    let b : Json := .ofInt (2 ^ 53 + 1)
    let s : Parameter.Siblings := ⟨[], [("size", b)], 1⟩
    a ≠ b ∧ Json.equal a b = true ∧
      Json.equal (.obj [("list", .arr [a])]) (.obj [("list", .arr [b])]) = true ∧
      evaluate "number" "equals" a b true = .ok true ∧
      evaluate "array" "contains" (.arr [a]) b true = .ok true ∧
      s.hasOneOf ("size", [a]) = true := by
  intro a b s
  -- They differ, but they are rounded to the same float, and values are compared by that at every
  -- depth.
  have different : a ≠ b := fun same => absurd (Json.Number.int.inj (Json.num.inj same)) (by decide)
  have same : Json.equal a b = true := (Json.equal_ofInt_iff (by decide) (by decide)).2 (by decide)
  have list : Json.equal (.arr [a]) (.arr [b]) = true := by
    rw [Json.equal, Json.equalItems, same]
    rfl
  have object : Json.equal (.obj [("list", .arr [a])]) (.obj [("list", .arr [b])]) = true := by
    have found : Named.get? [("list", Json.arr [b])] "list" = some (.arr [b]) := rfl
    rw [Json.equal, Json.includedIn, found]
    simp only [list]
    rfl
  have current : s.valueOf "size" = b := by cbv
  have shown : s.hasOneOf ("size", [a]) = true := by
    rw [Parameter.Siblings.hasOneOf, current, List.any_cons, same]
    rfl
  refine ⟨different, same, object, ?_, ?_, shown⟩
  · rw [evaluate_number_equals, show Json.equal (.ofInt (2 ^ 53)) (.ofInt (2 ^ 53 + 1))
      = true from same]
  · rw [evaluate_array_contains, List.any_cons, same]
    rfl

end Filter

end Conveyor
