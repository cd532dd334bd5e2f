/-
What a change leaves of names and their order.

A change puts a new name at the end and moves none that is there, so the names after it do not
depend on the value (`names_update`). Of two changes of one name the second sees what the first left
(`update_update_self`), and changes of different names can be made in either order, but for the
order in which new names come to stand (`update_comm`).
-/
import Conveyor.Named
import Mathlib.Data.List.Nodup

set_option autoImplicit false

namespace Conveyor.Named

variable {α : Type}

theorem names_update (m : Named α) (name : String) (f : Option α → α) :
    (m.update name f).names = if name ∈ m.names then m.names else m.names ++ [name] := by
  induction m with
  | nil => rfl
  | cons p m ih =>
    obtain ⟨k, v⟩ := p
    simp only [update]
    split
    · rename_i same
      obtain rfl := beq_iff_eq.1 same
      rw [if_pos (show k ∈ names ((k, v) :: m) from List.mem_cons_self)]
      rfl
    · rename_i other
      have step : names ((k, v) :: update m name f) = k :: names (update m name f) := rfl
      have mem : name ∈ names ((k, v) :: m) ↔ name ∈ names m :=
        List.mem_cons.trans (or_iff_right fun same => other (beq_iff_eq.2 same.symm))
      rw [step, ih]
      simp only [mem]
      split <;> rfl

/-- A change keeps the names distinct. -/
theorem nodup_update {m : Named α} (distinct : m.names.Nodup) (name : String) (f : Option α → α) :
    (m.update name f).names.Nodup := by
  rw [names_update]
  split
  · exact distinct
  · rename_i new
    exact List.nodup_append.2 ⟨distinct, List.nodup_singleton name, fun a ha b hb same =>
      new (List.mem_singleton.1 hb ▸ same ▸ ha)⟩

theorem names_update_congr (m : Named α) (name : String) (f g : Option α → α) :
    (m.update name f).names = (m.update name g).names := by rw [names_update, names_update]

/-- Of two changes of one name, the second sees what the first left. -/
theorem update_update_self (m : Named α) (name : String) (f g : Option α → α) :
    (m.update name f).update name g = m.update name fun old => g (some (f old)) := by
  induction m with
  | nil => simp only [update, BEq.rfl, if_true]
  | cons p m ih =>
    obtain ⟨k, v⟩ := p
    by_cases same : k = name
    · rw [same]
      simp only [update, BEq.rfl, if_true]
    · have differ : (k == name) = false := beq_eq_false_iff_ne.2 same
      simp only [update, differ, Bool.false_eq_true, if_false, ih]

/-- Two names can be changed in either order; names that are new come in the order of the
changes. -/
theorem update_comm {name other : String} (differ : name ≠ other) (m : Named α)
    (f g : Option α → α) :
    ((m.update name f).update other g).Perm ((m.update other g).update name f) := by
  have apart : (name == other) = false := beq_eq_false_iff_ne.2 differ
  have apart' : (other == name) = false := beq_eq_false_iff_ne.2 differ.symm
  -- The induction is on the members up to the first of the two names; beyond it the two changes do
  -- not meet.
  induction m with
  | nil =>
    simp only [update, apart, apart', Bool.false_eq_true, if_false]
    exact .swap ..
  | cons p m ih =>
    obtain ⟨k, v⟩ := p
    by_cases first : k = name
    · rw [first]
      simp only [update, apart, BEq.rfl, if_true, Bool.false_eq_true, if_false]
      exact .refl _
    have past : (k == name) = false := beq_eq_false_iff_ne.2 first
    by_cases second : k = other
    · rw [second]
      simp only [update, apart', BEq.rfl, if_true, Bool.false_eq_true, if_false]
      exact .refl _
    have past' : (k == other) = false := beq_eq_false_iff_ne.2 second
    simp only [update, past, past', Bool.false_eq_true, if_false]
    exact ih.cons _

theorem map_update {β : Type} (m : Named α) (name : String) {f : Option α → α} {f' : Option β → β}
    {h : α → β} (change : ∀ v, h (f v) = f' (v.map h)) :
    (m.update name f).map (fun p => (p.1, h p.2))
      = update (m.map fun p => (p.1, h p.2)) name f' := by
  induction m with
  | nil => simp [update, change]
  | cons p m ih =>
    obtain ⟨k, v⟩ := p
    by_cases here : k = name
    · simp [update, here, change]
    · simp [update, here, ih]

/-! ## Looking up -/

/-- A name has a value after it was set, whatever was set before. -/
theorem contains_insert (m : Named α) (name other : String) (v : α) :
    contains (insert m name v) other = true ↔ other = name ∨ contains m other = true := by
  by_cases h : other = name
  · subst h
    simp only [contains, get?_insert_self, Option.isSome_some, true_or]
  · simp only [contains, get?_insert_of_ne h, h, false_or]

theorem get?_map {β : Type} (f : α → β) (m : Named α) (name : String) :
    get? (m.map fun p => (p.1, f p.2)) name = (get? m name).map f := by
  induction m with
  | nil => rfl
  | cons p m ih =>
    obtain ⟨k, v⟩ := p
    simp only [List.map_cons, get?_cons, ih]
    split <;> rfl

section

variable {m : Named α} {name : String} {v : α}

theorem mem_names (mem : (name, v) ∈ m) : name ∈ m.names := List.mem_map_of_mem mem

theorem mem_of_get? (found : m.get? name = some v) : (name, v) ∈ m := by
  induction m with
  | nil => exact nomatch found
  | cons p m ih =>
    obtain ⟨k, w⟩ := p
    rw [get?_cons] at found
    split at found
    · rename_i same
      obtain rfl := Option.some.inj found
      obtain rfl := beq_iff_eq.1 same
      exact List.mem_cons_self
    · exact List.mem_cons_of_mem _ (ih found)

theorem mem_names_iff : name ∈ m.names ↔ ∃ v, m.get? name = some v := by
  constructor
  · intro mem
    cases found : m.get? name with
    | some v => exact ⟨v, rfl⟩
    | none =>
      obtain ⟨p, mem', rfl⟩ := List.mem_map.1 mem
      have different := List.lookup_eq_none_iff.1 found p mem'
      rw [bne_self_eq_false] at different
      exact nomatch different
  · rintro ⟨v, found⟩
    exact mem_names (mem_of_get? found)

theorem get?_of_mem (distinct : m.names.Nodup) (mem : (name, v) ∈ m) : m.get? name = some v := by
  induction m with
  | nil => exact nomatch mem
  | cons p m ih =>
    obtain ⟨k, w⟩ := p
    obtain ⟨other, distinct⟩ := List.nodup_cons.1 distinct
    rw [get?_cons]
    rcases List.mem_cons.1 mem with same | mem
    · obtain ⟨rfl, rfl⟩ := Prod.mk.inj same
      rw [if_pos (beq_self_eq_true _)]
    · have moved : name ≠ k := fun same => other (same ▸ mem_names mem)
      rw [if_neg (by simpa using moved), ih distinct mem]

/-- A new name comes last. -/
theorem insert_fresh (fresh : name ∉ m.names) : m.insert name v = m ++ [(name, v)] := by
  induction m with
  | nil => rfl
  | cons p m ih =>
    obtain ⟨k, w⟩ := p
    obtain ⟨other, fresh⟩ := not_or.1 (mt List.mem_cons.2 fresh)
    have step : insert ((k, w) :: m) name v = (k, w) :: insert m name v := by
      rw [insert, update, if_neg (by simpa using Ne.symm other)]
      rfl
    rw [step, ih fresh, List.cons_append]

/-- Members with new names come last, in their order. -/
theorem foldl_insert_fresh {more : Named α} (distinct : (m ++ more).names.Nodup) :
    more.foldl (fun m q => m.insert q.1 q.2) m = m ++ more := by
  induction more generalizing m with
  | nil => rw [List.foldl_nil, List.append_nil]
  | cons q more ih =>
    have fresh : q.1 ∉ m.names := by
      rw [names, List.map_append, List.map_cons] at distinct
      exact fun mem => (List.nodup_append.1 distinct).2.2 q.1 mem q.1 List.mem_cons_self rfl
    have assoc : m ++ q :: more = m ++ [q] ++ more := by
      rw [List.append_assoc, List.singleton_append]
    rw [List.foldl_cons, insert_fresh fresh, assoc]
    exact ih (assoc ▸ distinct)

/-- A name that an object does not have is not in one with the same names either. -/
theorem get?_eq_none_of_perm {β : Type} {other : Named β} (names : m.names.Perm other.names)
    (absent : name ∉ m.names) :
    other.get? name = none := by
  cases found : other.get? name with
  | none => rfl
  | some v => exact absurd (names.mem_iff.2 (mem_names (mem_of_get? found))) absent

end

end Conveyor.Named
