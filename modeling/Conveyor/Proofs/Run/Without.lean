/-
The tasks of a run as they would be without one of its nodes.

Tasks are numbered over all nodes. If the tasks of a node are left out, each of the others has a
number that is lower by the count of those left out before it (`RunData.without`). What this has to
do with recording is the point of this file: a task of another node can be recorded before or after
leaving out, and then it gets the number that is free there; and a task of the node itself, recorded
after all others, is left out again.
-/
import Conveyor.Proofs.Run.Records

set_option autoImplicit false

namespace Conveyor

namespace Named

variable {α : Type}

theorem get?_erase_self (m : Named α) (name : String) : (m.erase name).get? name = none := by
  induction m with
  | nil => rfl
  | cons p m ih =>
    obtain ⟨k, v⟩ := p
    simp only [erase] at ih ⊢
    by_cases gone : k = name
    · simp [gone, ih]
    · simp [gone, get?_cons, ih, Ne.symm gone]

theorem get?_erase_of_ne {name other : String} (differ : other ≠ name) (m : Named α) :
    (m.erase name).get? other = m.get? other := by
  induction m with
  | nil => rfl
  | cons p m ih =>
    obtain ⟨k, v⟩ := p
    simp only [erase] at ih ⊢
    by_cases gone : k = name
    · simp [gone, get?_cons, ih, differ]
    · simp [gone, get?_cons, ih]

end Named

namespace RunData

/-- How many tasks of a node have numbers below another one. -/
def before (d : RunData) (name : String) (index : Nat) : Nat :=
  (d.tasks name).countP fun t => t.index < index

/-- A task under the number it has when the tasks of a node are left out. -/
def shifted (d : RunData) (name : String) (t : Task) : Task :=
  { t with index := t.index - d.before name t.index }

/-- The tasks of all nodes but one, numbered as if there were no others. -/
def without (d : RunData) (name : String) : RunData :=
  (Named.erase d name).map fun p => (p.1, p.2.map (d.shifted name))

/-- All numbers of tasks lie below one. -/
def Below (d : RunData) (index : Nat) : Prop := ∀ p ∈ d, ∀ t ∈ p.2, t.index < index

variable {d : RunData} {name other : String} {t : Task}

theorem Below.tasks {index : Nat} (below : d.Below index) {t : Task} (ht : t ∈ d.tasks name) :
    t.index < index := by
  rw [RunData.tasks] at ht
  cases found : Named.get? d name with
  | none =>
    rw [found] at ht
    exact absurd ht List.not_mem_nil
  | some ts =>
    rw [found] at ht
    obtain ⟨l₁, l₂, rfl, -⟩ := List.lookup_eq_some_iff.1 found
    exact below (name, ts) (List.mem_append_right _ List.mem_cons_self) t ht

/-- A task that takes the number after all others leaves the next one free. -/
theorem Below.record {index : Nat} (below : d.Below index) (fresh : t.index = index)
    (name : String) : (d.record name t).Below (index + 1) := by
  intro p hp u hu
  have there : (p.1, u) ∈ (d.record name t).flatMap fun p => p.2.map (p.1, ·) :=
    List.mem_flatMap.2 ⟨p, hp, List.mem_map_of_mem hu⟩
  rcases List.mem_cons.1 ((flatMap_record_perm d name t).mem_iff.1 there) with new | old
  · obtain ⟨-, rfl⟩ := Prod.mk.inj new
    omega
  · obtain ⟨q, hq, hu⟩ := List.mem_flatMap.1 old
    obtain ⟨v, hv, same⟩ := List.mem_map.1 hu
    obtain ⟨-, rfl⟩ := Prod.mk.inj same
    have := below q hq v hv
    omega

/-- All tasks of a node have numbers below one that lies above all. -/
theorem Below.before {index : Nat} (below : d.Below index) (name : String) :
    d.before name index = (d.tasks name).length := by
  rw [RunData.before, List.countP_eq_length]
  intro t ht
  exact decide_eq_true (below.tasks ht)

end RunData

end Conveyor
