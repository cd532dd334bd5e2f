/-
Reading records as they are written.

A record is written member by member: some members always, some only if there is a value for them,
some only if a list is not empty. It is read field by field, and each field looks up its own member
(`required_named`, `orElse_named`, `optional_named`), whatever stands around it. So what has to be
known of a written record is what its members are, which `get?_append`, `get?_memberIf` and
`get?_memberUnlessEmpty` tell, and that a member which is left out is one that the reader has the
same default for (`optional_member`, `orElse_member`). Entries of arrays and members of objects are
read one by one, so that they come back if each of them does (`items_map`, `dict_map`).
-/
import Conveyor.Json.Decode

set_option autoImplicit false

namespace Conveyor

namespace Named

variable {α : Type} {m m' : Named α} {name k : String}

/-- A name is looked up in the first of two lists that has it. -/
@[simp] theorem get?_append : get? (m ++ m') name = (get? m name).or (get? m' name) := by
  induction m with
  | nil => rfl
  | cons p m ih =>
    obtain ⟨k, v⟩ := p
    rw [List.cons_append, get?_cons, get?_cons, ih]
    split <;> rfl

end Named

namespace Json

variable {α β : Type} {d : Decoder α} {encode : α → Json} {a fallback : α} {o : Object}
  {name k : String}

/-! ## Looking up a field -/

@[simp] theorem required_named : (namedField o name).required d = (o.get? name).bind d := by
  rw [namedField]
  cases o.get? name <;> rfl

@[simp] theorem orElse_named : (namedField o name).orElse d fallback = (o.get? name).elim
    (some fallback) d := by
  rw [namedField]
  cases o.get? name <;> rfl

@[simp] theorem optional_named : (namedField o name).optional d = (o.get? name).elim (some none)
    (Decode.orNull d) := by
  rw [namedField]
  cases o.get? name <;> rfl

/-! ## Members that may be left out -/

@[simp] theorem get?_memberIf {v : Option Json} :
    Named.get? (memberIf k v) name = if name = k then v else none := by
  cases v with
  | none => exact (ite_self none).symm
  | some v => simp only [memberIf, Named.get?_cons, Named.get?_nil, beq_iff_eq]

@[simp] theorem get?_memberUnlessEmpty {xs : List α} :
    Named.get? (memberUnlessEmpty k encode xs) name = if name = k then if xs
    = [] then none else some (.arr (xs.map encode)) else none := by
  cases xs with
  | nil => exact (ite_self none).symm
  | cons x xs => simp [memberUnlessEmpty, Named.get?_cons, Named.get?_nil]

/-- What is not null is read as a value. -/
theorem orNull_of_ne {v : Json} (given : v ≠ .null) : Decode.orNull d v = (d v).map some := by
  cases v with
  | null => exact absurd rfl given
  | bool => rfl
  | num => rfl
  | str => rfl
  | arr => rfl
  | obj => rfl

/-- An optional field comes back: nothing is written for none, and no value is written as null. -/
theorem optional_member {x : Option α} (back : ∀ a ∈ x, d (encode a) = some a)
    (given : ∀ a, encode a ≠ .null) :
    (x.map encode).elim (some none) (Decode.orNull d) = some x := by
  cases x with
  | none => rfl
  | some a => rw [Option.map_some, Option.elim_some, orNull_of_ne (given a), back a rfl,
    Option.map_some]

/-- An optional text comes back. -/
@[simp] theorem optional_string (text : Option String) :
    text.elim (some none) (Decode.orNull Decode.string ∘ str) = some text := by
  rw [← Option.elim_map]
  exact optional_member (fun _ _ => rfl) nofun

/-- A field that is left out where it is empty comes back: it is empty by default. -/
theorem orElse_member {d : Decoder (List α)} {xs : List α} {v : Json} (back : d v = some xs) :
    (if xs = [] then none else some v).elim (some []) d = some xs := by
  split
  next empty => rw [empty, Option.elim_none]
  next => rw [Option.elim_some, back]

/-! ## Arrays and objects -/

/-- Entries of an array come back if each of them does. -/
theorem items_map {xs : List α} (back : ∀ a ∈ xs, d (encode a) = some a) :
    Decode.items d (xs.map encode) = some xs := by
  induction xs with
  | nil => rfl
  | cons x xs ih =>
    obtain ⟨first, rest⟩ := List.forall_mem_cons.1 back
    rw [List.map_cons, Decode.items, first, ih rest]

theorem list_map {xs : List α} (back : ∀ a ∈ xs, d (encode a) = some a) :
    Decode.list d (.arr (xs.map encode)) = some xs := items_map back

/-- Members of an object come back, in their order, if each of them does. -/
theorem dict_map {m : Named α} (back : ∀ p ∈ m, d (encode p.2) = some p.2) :
    Decode.dict d (.obj (m.map fun p => (p.1, encode p.2))) = some m := by
  rw [Decode.dict]
  induction m with
  | nil => rfl
  | cons p m ih =>
    obtain ⟨first, rest⟩ := List.forall_mem_cons.1 back
    rw [List.map_cons, Decode.members, first, ih rest]

/-! ## Numbers -/

/-- A whole number comes back if it is in the range. -/
theorem intIn_ofNat {n hi : Nat} (fits : n ≤ hi) :
    Decode.intIn 0 hi (ofNat n) = some (n : Int) := by
  rw [ofNat, Decode.intIn, if_pos]
  simp only [Bool.and_eq_true, decide_eq_true_eq]
  omega

/-- A natural number of 64 bits comes back. -/
theorem nat_ofNat {n : Nat} (fits : n < 2 ^ (64 : Nat)) : Decode.nat (ofNat n) = some n := by
  have most : maxInt = ((2 ^ 64 - 1 : Nat) : Int) := rfl
  rw [Decode.nat, most, intIn_ofNat (Nat.le_sub_one_of_lt fits)]
  rfl

end Json

end Conveyor
