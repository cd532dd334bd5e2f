/-
Values by name.

Names keep the order in which they came. `insert` and `update` change a value in place and put a new
name at the end, so no name that was there moves.
-/
import Conveyor.Sort

set_option autoImplicit false

namespace Conveyor

/-- Values by name, in order. -/
abbrev Named (α : Type) := List (String × α)

namespace Named

variable {α : Type}

/-- The value of a name. -/
def get? (m : Named α) (name : String) : Option α := List.lookup name m

/-- Whether a name has a value. -/
def contains (m : Named α) (name : String) : Bool := (get? m name).isSome

/-- The names, in order. -/
def names (m : Named α) : List String := m.map Prod.fst

/-- Changes the value of a name, or gives it one. -/
def update : Named α → String → (Option α → α) → Named α
  | [], name, f => [(name, f none)]
  | (k, w) :: rest, name, f =>
    if k == name then (k, f (some w)) :: rest else (k, w) :: update rest name f

/-- Sets the value of a name. -/
def insert (m : Named α) (name : String) (v : α) : Named α := update m name fun _ => v

/-- Removes a name. -/
def erase (m : Named α) (name : String) : Named α := m.filter (fun p => p.1 != name)

/-- From name-value pairs, a later pair overwriting an earlier one of the same name. -/
def ofPairs (ps : List (String × α)) : Named α := ps.foldl (fun m p => insert m p.1 p.2) []

/-- Entries in the order of their names. -/
def sorted (m : Named α) : Named α := sortBy (fun a b => a.1 ≤ b.1) m

/-! ## What a change does to the view -/

theorem get?_nil (name : String) : get? ([] : Named α) name = none := rfl

theorem get?_cons (k : String) (w : α) (rest : Named α) (name : String) :
    get? ((k, w) :: rest) name = if name == k then some w else get? rest name := by
  rw [get?, List.lookup_cons]
  cases name == k with
  | true => rfl
  | false => rfl

/-- The changed name has the changed value. -/
theorem get?_update_self (m : Named α) (name : String) (f : Option α → α) :
    get? (update m name f) name = some (f (get? m name)) := by
  induction m with
  | nil => simp [update, get?_cons, get?_nil]
  | cons p rest ih =>
    obtain ⟨k, w⟩ := p
    by_cases h : k = name
    · subst h; simp [update, get?_cons]
    · have h' : name ≠ k := fun e => h e.symm
      simp [update, get?_cons, h, h', ih]

/-- Every other name has the value it had. -/
theorem get?_update_of_ne {name other : String} (h : other ≠ name) (m : Named α)
    (f : Option α → α) : get? (update m name f) other = get? m other := by
  induction m with
  | nil => simp [update, get?_cons, get?_nil, h]
  | cons p rest ih =>
    obtain ⟨k, w⟩ := p
    by_cases hk : k = name
    · subst hk; simp [update, get?_cons, h]
    · simp [update, get?_cons, hk, ih]

/-- The name that was set has the value it was set to. -/
theorem get?_insert_self (m : Named α) (name : String) (v : α) :
    get? (insert m name v) name = some v := get?_update_self m name _

/-- Setting a name leaves every other name as it was. -/
theorem get?_insert_of_ne {name other : String} (h : other ≠ name) (m : Named α) (v : α) :
    get? (insert m name v) other = get? m other := get?_update_of_ne h m _

/-- What a name has after a name was set. -/
theorem get?_insert (m : Named α) (name other : String) (v : α) :
    get? (insert m name v) other = if other = name then some v else get? m other := by
  by_cases h : other = name
  · rw [if_pos h, h, get?_insert_self]
  · rw [if_neg h, get?_insert_of_ne h]

end Named

end Conveyor
