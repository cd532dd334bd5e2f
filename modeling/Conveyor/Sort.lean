/-
Sorting a list so that elements of one rank keep their order.

The lists that are sorted by this are short: the connections of a node, the nodes that are ready at
a time, the names of a workflow. Insertion by recursion on the list is enough for them, and it can
be followed step by step.
-/

set_option autoImplicit false

namespace Conveyor

variable {α : Type}

/-- Puts an element before the first one that it may go before. -/
def insertBy (le : α → α → Bool) (a : α) : List α → List α
  | [] => [a]
  | b :: l => if le a b then a :: b :: l else b :: insertBy le a l

/-- The elements of a list in order. -/
def sortBy (le : α → α → Bool) : List α → List α
  | [] => []
  | a :: l => insertBy le a (sortBy le l)

theorem insertBy_perm (le : α → α → Bool) (a : α) (l : List α) :
    (insertBy le a l).Perm (a :: l) := by
  induction l with
  | nil => exact List.Perm.refl _
  | cons b l ih =>
    rw [insertBy]
    split
    · exact List.Perm.refl _
    · exact (ih.cons b).trans (List.Perm.swap a b l)

/-- Sorting neither loses nor adds an element. -/
theorem sortBy_perm (le : α → α → Bool) (l : List α) : (sortBy le l).Perm l := by
  induction l with
  | nil => exact List.Perm.refl _
  | cons a l ih => exact (insertBy_perm le a _).trans (ih.cons a)

theorem mem_sortBy {le : α → α → Bool} {l : List α} {a : α} : a ∈ sortBy le l ↔ a ∈ l :=
  (sortBy_perm le l).mem_iff

/-! ## Sorting by a total order -/

/-- Of two elements that are compared, one may go before the other. -/
theorem isLE_total {cmp : α → α → Ordering} [Std.OrientedCmp cmp] (a b : α) :
    (cmp a b).isLE = true ∨ (cmp b a).isLE = true := by
  have swap : cmp a b = (cmp b a).swap := Std.OrientedCmp.eq_swap
  rw [swap]
  cases cmp b a with
  | lt => exact .inr rfl
  | eq => exact .inl rfl
  | gt => exact .inl rfl

theorem insertBy_pairwise {le : α → α → Bool} (total : ∀ a b, le a b = true ∨ le b a = true)
    (trans : ∀ a b c, le a b = true → le b c = true → le a c = true) (a : α) {l : List α}
    (h : l.Pairwise fun a b => le a b = true) :
    (insertBy le a l).Pairwise fun a b => le a b = true := by
  induction l with
  | nil => exact List.pairwise_singleton _ a
  | cons b l ih =>
    obtain ⟨first, rest⟩ := List.pairwise_cons.1 h
    rw [insertBy]
    split
    · rename_i before
      refine List.pairwise_cons.2 ⟨fun c hc => ?_, h⟩
      rcases List.mem_cons.1 hc with rfl | hc
      · exact before
      · exact trans a b c before (first c hc)
    · rename_i after
      refine List.pairwise_cons.2 ⟨fun c hc => ?_, ih rest⟩
      rcases List.mem_cons.1 ((insertBy_perm le a l).mem_iff.1 hc) with rfl | hc
      · exact (total c b).resolve_left after
      · exact first c hc

/-- By a total order, each element comes before those after it. -/
theorem sortBy_pairwise {le : α → α → Bool} (total : ∀ a b, le a b = true ∨ le b a = true)
    (trans : ∀ a b c, le a b = true → le b c = true → le a c = true) (l : List α) :
    (sortBy le l).Pairwise fun a b => le a b = true := by
  induction l with
  | nil => exact List.Pairwise.nil
  | cons a l ih => exact insertBy_pairwise total trans a ih

/-- If no two elements are of one rank, it does not matter how a list was arranged before it was
sorted. -/
theorem sortBy_eq_of_perm {le : α → α → Bool} (total : ∀ a b, le a b = true ∨ le b a = true)
    (trans : ∀ a b c, le a b = true → le b c = true → le a c = true) {l l' : List α}
    (antisymm : ∀ a ∈ l, ∀ b ∈ l, le a b = true → le b a = true → a = b) (perm : l.Perm l') :
    sortBy le l = sortBy le l' := by
  refine List.Perm.eq_of_pairwise (fun a b ha hb => ?_) (sortBy_pairwise total trans l)
    (sortBy_pairwise total trans l')
    (((sortBy_perm le l).trans perm).trans (sortBy_perm le l').symm)
  exact antisymm a (mem_sortBy.1 ha) b (perm.mem_iff.2 (mem_sortBy.1 hb))

/-- Sorting by a comparison of keys, if those of different elements are not alike. -/
theorem sortBy_key_eq_of_perm {β : Type} (cmp : β → β → Ordering) [Std.TransCmp cmp] (key : α → β)
    {l l' : List α} (distinct : ∀ a ∈ l, ∀ b ∈ l, cmp (key a) (key b) = .eq → a = b)
    (perm : l.Perm l') : sortBy (fun a b => (cmp (key a) (key b)).isLE) l
      = sortBy (fun a b => (cmp (key a) (key b)).isLE) l' := by
  exact sortBy_eq_of_perm (fun a b => isLE_total (key a) (key b))
    (fun a b c => Std.TransCmp.isLE_trans)
    (fun a ha b hb ab ba => distinct a ha b hb (Std.OrientedCmp.isLE_antisymm ab ba)) perm

end Conveyor
