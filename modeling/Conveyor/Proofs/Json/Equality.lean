/-
What equality of JSON values says.

Arrays are equal entry by entry (`equalItems_iff`), and an object is equal to one of as many members
in which it is included (`includedIn_iff`). Names stand once in an object, so an object whose
members were only moved, or replaced by equal ones, is equal to what it was (`equal_obj_of_perm`).
Values are taken as the program can hold them (`Nested`): numbers of 64 bits, finite floats, each
name once.
-/
import Conveyor.Json.Equal
import Conveyor.Proofs.Decimal.Whole
import Conveyor.Proofs.Named
import Mathlib.Data.List.Forall2
import Mathlib.Data.List.Perm.Subperm

set_option autoImplicit false

namespace Conveyor

namespace Json

/-! ## Values that the program can hold -/

/-- A number of 64 bits, signed or not, or a finite float. -/
def Number.Valid : Number → Prop
  | .int i => minInt ≤ i ∧ i ≤ maxInt
  | .float x => Decimal.Finite x

instance (n : Number) : Decidable n.Valid :=
  match n with
  | .int i => inferInstanceAs (Decidable (minInt ≤ i ∧ i ≤ maxInt))
  | .float x =>
    decidable_of_iff ((Decimal.Binary.ofFloat? x).isSome = true) Option.isSome_iff_ne_none

/-- A value as the program can hold it that is nested at most so many containers deep. An array has
no more entries than fit in an address space of 63 bits. -/
inductive Nested : (levels : Nat) → Json → Prop
  | null {levels : Nat} : Nested levels .null
  | bool {levels : Nat} (b : Bool) : Nested levels (.bool b)
  | num {levels : Nat} {n : Number} (valid : n.Valid) : Nested levels (.num n)
  | str {levels : Nat} (s : String) : Nested levels (.str s)
  | arr {levels : Nat} {xs : List Json} (short : xs.length < 2 ^ 63) (entries : ∀ x ∈ xs,
    Nested levels x) :
      Nested (levels + 1) (.arr xs)
  | obj {levels : Nat} {o : Object} (distinct : o.names.Nodup) (members : ∀ p ∈ o,
    Nested levels p.2) :
      Nested (levels + 1) (.obj o)

theorem Nested.mono {levels more : Nat} {x : Json} (nested : x.Nested levels) (le : levels ≤ more) :
    x.Nested more := by
  induction nested generalizing more with
  | null => exact .null
  | bool b => exact .bool b
  | num valid => exact .num valid
  | str s => exact .str s
  | arr short _ ih =>
    obtain ⟨more, rfl⟩ := Nat.exists_eq_add_of_lt le
    exact .arr short fun x mem => ih x mem (by omega)
  | obj distinct _ ih =>
    obtain ⟨more, rfl⟩ := Nat.exists_eq_add_of_lt le
    exact .obj distinct fun p mem => ih p mem (by omega)

/-! ## Equality -/

theorem equalItems_iff {xs ys : List Json} :
    equalItems xs ys = true ↔ List.Forall₂ (equal · ·) xs ys := by
  induction xs generalizing ys with
  | nil =>
    cases ys with
    | nil => simp [equalItems]
    | cons y ys => simp [equalItems]
  | cons x xs ih =>
    cases ys with
    | nil => simp [equalItems]
    | cons y ys => rw [equalItems, Bool.and_eq_true, ih, List.forall₂_cons]

theorem includedIn_iff {a b : Object} :
    includedIn a b = true ↔ ∀ p ∈ a, ∃ w, b.get? p.1 = some w ∧ equal p.2 w = true := by
  induction a with
  | nil => simp [includedIn]
  | cons p a ih =>
    obtain ⟨k, v⟩ := p
    rw [includedIn, Bool.and_eq_true, ih, List.forall_mem_cons]
    refine and_congr_left' ?_
    cases b.get? k with
    | none => simp
    | some w => simp

theorem equal_str {s : String} {w : Json} (same : equal (.str s) w = true) : w = .str s := by
  cases w <;> rw [equal] at same <;> simp_all

theorem equal_arr {xs : List Json} {w : Json} (same : equal (.arr xs) w = true) :
    ∃ ys, w = .arr ys ∧ List.Forall₂ (equal · ·) xs ys := by
  cases w <;> simp only [equal, Bool.false_eq_true] at same
  exact ⟨_, rfl, equalItems_iff.1 same⟩

/-- What is equal to an object is one with the same names and equal members. -/
theorem equal_obj {a : Object} {w : Json} (distinct : a.names.Nodup)
    (same : equal (.obj a) w = true) :
    ∃ b : Object, w = .obj b ∧ a.names.Perm b.names ∧
      ∀ p ∈ a, ∃ v, b.get? p.1 = some v ∧ equal p.2 v = true := by
  cases w <;> simp only [equal, Bool.false_eq_true, Bool.and_eq_true, beq_iff_eq] at same
  rename_i b
  have members := includedIn_iff.1 same.2
  have inside : a.names ⊆ Named.names b := by
    intro name mem
    obtain ⟨p, mem', rfl⟩ := List.mem_map.1 mem
    obtain ⟨v, found, -⟩ := members p mem'
    exact Named.mem_names (Named.mem_of_get? found)
  refine ⟨b, rfl, (distinct.subperm inside).perm_of_length_le ?_, members⟩
  rw [Named.names, Named.names, List.length_map, List.length_map]
  exact Nat.le_of_eq same.1.symm

/-- What is in the first of two lists that are related has a partner in the second. -/
theorem related {α β : Type} {r : α → β → Prop} {xs : List α} {ys : List β}
    (all : List.Forall₂ r xs ys) {x : α} (mem : x ∈ xs) : ∃ y ∈ ys, r x y := by
  induction all with
  | nil => exact nomatch mem
  | cons head _ ih =>
    rcases List.mem_cons.1 mem with rfl | mem
    · exact ⟨_, List.mem_cons_self, head⟩
    · obtain ⟨y, mem', holds⟩ := ih mem
      exact ⟨y, List.mem_cons_of_mem _ mem', holds⟩

theorem names_eq {α β : Type} {a : Named α} {b : Named β}
    (same : List.Forall₂ (fun p q => p.1 = q.1) a b) :
    a.names = b.names :=
  List.forall₂_eq_eq_eq ▸ List.forall₂_map_left_iff.2 (List.forall₂_map_right_iff.2 same)

/-- An object whose members were replaced by equal ones and moved. -/
theorem equal_obj_of_perm {a b c : Object} (distinct : a.names.Nodup)
    (same : List.Forall₂ (fun p q => p.1 = q.1 ∧ equal p.2 q.2 = true) a b) (moved : c.Perm b) :
    equal (.obj a) (.obj c) = true := by
  have names : a.names = b.names := names_eq (same.imp fun _ _ h => h.1)
  have distinct' : c.names.Nodup := (moved.map Prod.fst).nodup_iff.2 (names.subst distinct)
  rw [equal, Bool.and_eq_true, beq_iff_eq, includedIn_iff]
  refine ⟨same.length_eq.trans moved.length_eq.symm, fun p mem => ?_⟩
  obtain ⟨q, mem', name, value⟩ := related same mem
  exact ⟨q.2, Named.get?_of_mem distinct' (moved.mem_iff.2 (name ▸ mem')), value⟩

end Json

end Conveyor
