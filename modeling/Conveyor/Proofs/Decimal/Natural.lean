/-
Decimal text of natural numbers, read back.

A number is written by taking its last digit off until nothing is left, and read from its first
digit on. The digits that are still to be written in front of some others spell the number that is
left (`natOfDigits_go`), so the whole text spells the number that it was made from.
-/
import Conveyor.Decimal.Read

set_option autoImplicit false

namespace Conveyor.Decimal

/-- The characters of the ten digits are digits, and spell what they are for. -/
theorem digitChar_spec (d : Nat) :
    (digitChar d).isDigit = true ∧ digitValue (digitChar d) = d % 10 := by
  have digits : ∀ m < 10, (Char.ofNat (48 + m)).isDigit = true ∧ digitValue (Char.ofNat (48 + m))
      = m := by decide
  exact digits (d % 10) (Nat.mod_lt d (by decide))

/-- The digits written in front of some others spell the number that was left. -/
theorem natOfDigits_go (n : Nat) (acc : List Nat) :
    natOfDigits 0 ((natDigits.go n acc).map digitChar) = natOfDigits n (acc.map digitChar) := by
  fun_induction natDigits.go n acc with
  | case1 acc => rfl
  | case2 n acc ih =>
    have value : 10 * ((n + 1) / 10) + (n + 1) % 10 = n + 1 := Nat.div_add_mod (n + 1) 10
    rw [ih, List.map_cons, natOfDigits, List.foldl_cons, (digitChar_spec _).2, Nat.mod_mod, value]
    rfl

theorem toList_natText (n : Nat) :
    (natText n).toList = if n = 0 then ['0'] else (natDigits n).map digitChar := by
  rw [natText]
  split
  · rfl
  · rw [digitText, String.toList_ofList]

/-- **The text of a number spells it.** -/
theorem natOfDigits_natText (n : Nat) : natOfDigits 0 (natText n).toList = n := by
  rw [toList_natText]
  split
  · rename_i zero
    rw [zero]
    rfl
  · exact natOfDigits_go n []

theorem isDigit_of_mem_natText {n : Nat} {c : Char} (h : c ∈ (natText n).toList) :
    c.isDigit = true := by
  rw [toList_natText] at h
  split at h
  · rw [List.mem_singleton.1 h]
    rfl
  · obtain ⟨d, -, rfl⟩ := List.mem_map.1 h
    exact (digitChar_spec d).1

theorem natText_ne_nil (n : Nat) : (natText n).toList ≠ [] := by
  intro empty
  -- Only zero is spelled by nothing, and zero is written as a digit.
  have zero : n = 0 := by
    rw [← natOfDigits_natText n, empty]
    rfl
  rw [zero] at empty
  exact absurd empty (by decide)

/-- A text is read as the number its characters spell, if they are digits and there are some. -/
theorem natOfText?_eq_some_iff {s : String} {n : Nat} : natOfText? s = some n ↔
    s.toList ≠ [] ∧ (∀ c ∈ s.toList, c.isDigit = true) ∧ natOfDigits 0 s.toList = n := by
  simp only [natOfText?, Option.ite_none_left_eq_some, Bool.or_eq_true, List.isEmpty_iff,
    Bool.not_eq_true', not_or, Bool.not_eq_false, List.all_eq_true, Option.some.injEq,
    and_assoc, ne_eq]

end Conveyor.Decimal
