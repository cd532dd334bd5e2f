/-
What recording a task does to the tasks of a run.

A record is read in three ways: by the tasks of one node, by the last of them, and by the first
number that is still free. Recording a task appends it to the tasks of its node, leaves those of
every other node as they were, and raises the first free number just above that of the task. Nothing
here looks inside a task, so the facts hold of tasks that failed as well.

Several tasks that are recorded one after another take the numbers from the first free one on. The
order of execution, which is told from the numbers alone, is then the order in which they were
recorded.
-/
import Conveyor.Proofs.Named
import Conveyor.Run.Task
import Mathlib.Data.List.Nodup
import Mathlib.Data.List.Perm.Basic

set_option autoImplicit false

namespace Conveyor

namespace RunData

/-! ## The tasks of a node -/

/-- A task that is recorded becomes the last task of its node. -/
theorem tasks_record_self (d : RunData) (node : String) (t : Task) :
    (d.record node t).tasks node = d.tasks node ++ [t] := by
  simp only [tasks, record, Named.get?_update_self, Option.getD_some]

/-- Recording a task changes no other node's tasks. -/
theorem tasks_record_of_ne {node other : String} (h : other ≠ node) (d : RunData) (t : Task) :
    (d.record node t).tasks other = d.tasks other := by
  simp only [tasks, record, Named.get?_update_of_ne h]

/-- The tasks after a record are those before and the one that was recorded. -/
theorem mem_tasks_record {d : RunData} {node name : String} {t u : Task} :
    u ∈ (d.record node t).tasks name ↔ u ∈ d.tasks name ∨ (name = node ∧ u = t) := by
  by_cases h : name = node
  · subst h
    simp only [tasks_record_self, List.mem_append, List.mem_singleton, true_and]
  · simp only [tasks_record_of_ne h, h, false_and, or_false]

theorem lastTask?_record_self (d : RunData) (node : String) (t : Task) :
    (d.record node t).lastTask? node = some t := by
  simp only [lastTask?, tasks_record_self, List.getLast?_concat]

theorem lastTask?_record_of_ne {node other : String} (h : other ≠ node) (d : RunData) (t : Task) :
    (d.record node t).lastTask? other = d.lastTask? other := by
  simp only [lastTask?, tasks_record_of_ne h]

/-! ## No node without tasks -/

/-- Every node that is on record has a task. -/
def Solid (d : RunData) : Prop := ∀ p ∈ d, p.2 ≠ []

theorem Solid.record {d : RunData} (solid : d.Solid) (node : String) (t : Task) :
    (d.record node t).Solid := by
  induction d with
  | nil =>
    intro p hp
    simp only [RunData.record, Named.update, List.mem_singleton] at hp
    rw [hp]
    exact List.append_ne_nil_of_right_ne_nil _ (List.cons_ne_nil t [])
  | cons q d ih =>
    obtain ⟨k, ts⟩ := q
    have rest : RunData.Solid d := fun p hp => solid p (List.mem_cons_of_mem _ hp)
    intro p hp
    rw [RunData.record, Named.update] at hp
    split at hp
    · rcases List.mem_cons.1 hp with rfl | old
      · exact List.append_ne_nil_of_right_ne_nil _ (List.cons_ne_nil t [])
      · exact rest p old
    · rcases List.mem_cons.1 hp with rfl | old
      · exact solid _ List.mem_cons_self
      · exact ih rest p old

/-! ## The first free number

`nextIndex` runs over the tasks node by node, in the order of the names. A greatest number does not
depend on that order, so it is enough to follow the tasks up to a permutation. -/

/-- The first task of a run gets the number zero. -/
theorem nextIndex_nil : nextIndex [] = 0 := by
  simp only [nextIndex, all, Named.sorted, sortBy, List.flatMap_nil, List.map_nil,
    List.foldl_nil]

/-- The greatest of some numbers does not depend on their order. -/
theorem foldl_max_perm {l l' : List Nat} (h : l.Perm l') (a : Nat) :
    l.foldl max a = l'.foldl max a := by
  induction h generalizing a with
  | nil => rfl
  | cons x _ ih => exact ih (max a x)
  | swap x y l =>
    simp only [List.foldl_cons]
    rw [Nat.max_assoc, Nat.max_comm y x, ← Nat.max_assoc]
  | trans _ _ ih ih' => exact (ih a).trans (ih' a)

/-- The number that a search for the greatest one begins with can be compared in the end. -/
theorem foldl_max_eq (l : List Nat) (a : Nat) : l.foldl max a = max a (l.foldl max 0) := by
  induction l generalizing a with
  | nil => simp
  | cons x l ih =>
    rw [List.foldl_cons, List.foldl_cons, ih (max a x), ih (max 0 x)]
    omega

/-- No number is above the greatest one. -/
theorem le_foldl_max {l : List Nat} {x : Nat} (h : x ∈ l) (a : Nat) : x ≤ l.foldl max a := by
  induction l generalizing a with
  | nil => exact absurd h List.not_mem_nil
  | cons y l ih =>
    rw [List.foldl_cons]
    rcases List.mem_cons.1 h with rfl | h
    · rw [foldl_max_eq]
      omega
    · exact ih h (max a y)

/-- The greatest number is one of the numbers. -/
theorem foldl_max_mem (l : List Nat) (a : Nat) : l.foldl max a = a ∨ l.foldl max a ∈ l := by
  induction l generalizing a with
  | nil => exact .inl rfl
  | cons y l ih =>
    rw [List.foldl_cons, List.mem_cons]
    rcases ih (max a y) with hy | hy
    · rcases Nat.le_total a y with hay | hay
      · exact .inr (.inl (hy.trans (Nat.max_eq_right hay)))
      · exact .inl (hy.trans (Nat.max_eq_left hay))
    · exact .inr (.inr hy)

/-- The tasks in the order of the names are those in the order of the records, permuted. -/
theorem all_perm (d : RunData) : d.all.Perm (d.flatMap fun p => p.2.map (p.1, ·)) :=
  (sortBy_perm _ _).flatMap_right _

/-- Recording a task adds it to the tasks, wherever its node stands among the names. -/
theorem flatMap_record_perm (d : RunData) (node : String) (t : Task) :
    ((d.record node t).flatMap fun p => p.2.map (p.1, ·)).Perm
      ((node, t) :: d.flatMap fun p => p.2.map (p.1, ·)) := by
  induction d with
  | nil => simp [record, Named.update]
  | cons p d ih =>
    obtain ⟨k, ts⟩ := p
    by_cases hk : k = node
    · subst hk
      simp only [record, Named.update, beq_self_eq_true, if_true, Option.getD_some,
        List.flatMap_cons, List.map_append, List.map_cons, List.map_nil]
      rw [List.append_assoc]
      exact List.perm_middle
    · simp only [record, Named.update, beq_iff_eq, hk, if_false, List.flatMap_cons]
      exact (ih.append_left _).trans List.perm_middle

/-- The tasks after a record are those before and the one that was recorded, permuted. -/
theorem all_record_perm (d : RunData) (node : String) (t : Task) :
    (d.record node t).all.Perm ((node, t) :: d.all) :=
  ((d.record node t).all_perm.trans (flatMap_record_perm d node t)).trans (d.all_perm.symm.cons _)

/-- The first free number after a record lies above the recorded task and above all that were
there. -/
theorem nextIndex_record (d : RunData) (node : String) (t : Task) :
    (d.record node t).nextIndex = max (t.index + 1) d.nextIndex := by
  have hall : ((d.record node t).all.map fun p => p.2.index + 1).Perm
      ((t.index + 1) :: d.all.map fun p => p.2.index + 1) := (all_record_perm d node t).map _
  rw [nextIndex, foldl_max_perm hall, List.foldl_cons, Nat.zero_max, foldl_max_eq, nextIndex]

/-- A task that takes the first free number leaves the next one free. -/
theorem nextIndex_record_next {d : RunData} {t : Task} (node : String) (h : t.index = d.nextIndex) :
    (d.record node t).nextIndex = d.nextIndex + 1 := by
  rw [nextIndex_record, h]
  omega

/-- The first free number lies above those of all tasks. -/
theorem index_lt_nextIndex {d : RunData} {u : String × Task} (hu : u ∈ d.all) :
    u.2.index < d.nextIndex :=
  le_foldl_max (List.mem_map_of_mem (f := fun u : String × Task => u.2.index + 1) hu) 0

/-- The first free number is zero, or one more than the number of a task. -/
theorem nextIndex_attained (d : RunData) :
    d.nextIndex = 0 ∨ ∃ u ∈ d.all, d.nextIndex = u.2.index + 1 := by
  rcases foldl_max_mem (d.all.map fun u => u.2.index + 1) 0 with zero | some
  · exact .inl zero
  · obtain ⟨u, hu, index⟩ := List.mem_map.1 some
    exact .inr ⟨u, hu, index.symm⟩

/-! ## One record after another -/

/-- A task that is recorded makes a difference. -/
theorem record_ne (d : RunData) (node : String) (t : Task) : d.record node t ≠ d := by
  intro same
  have tasks := d.tasks_record_self node t
  rw [same] at tasks
  exact List.cons_ne_nil t [] (List.self_eq_append_right.1 tasks)

/-- Records the tasks of some nodes, the first one first. -/
def recordAll (d : RunData) (ts : List (String × Task)) : RunData :=
  ts.foldl (fun d u => d.record u.1 u.2) d

theorem recordAll_append (d : RunData) (ts ts' : List (String × Task)) :
    d.recordAll (ts ++ ts') = (d.recordAll ts).recordAll ts' :=
  List.foldl_append

/-- The tasks of a node are followed by those that are recorded of it. -/
theorem tasks_recordAll (d : RunData) (ts : List (String × Task)) (node : String) :
    (d.recordAll ts).tasks node = d.tasks node ++ (ts.filter fun u => u.1 = node).map Prod.snd := by
  induction ts generalizing d with
  | nil => exact (List.append_nil _).symm
  | cons u ts ih =>
    obtain ⟨name, t⟩ := u
    have first := ih (d.record name t)
    by_cases h : name = node
    · subst h
      rw [tasks_record_self, List.append_assoc] at first
      rw [List.filter_cons_of_pos (by simp only [decide_true])]
      exact first
    · rw [tasks_record_of_ne (Ne.symm h)] at first
      rw [List.filter_cons_of_neg (by simpa only [decide_eq_true_eq] using h)]
      exact first

/-- All tasks are those before and those that are recorded. -/
theorem all_recordAll_perm (d : RunData) (ts : List (String × Task)) :
    (d.recordAll ts).all.Perm (d.all ++ ts) := by
  induction ts generalizing d with
  | nil => rw [List.append_nil]; exact .refl _
  | cons u ts ih =>
    have first : ((d.record u.1 u.2).all ++ ts).Perm ((u :: d.all) ++ ts) :=
      (all_record_perm d u.1 u.2).append_right ts
    exact ((ih (d.record u.1 u.2)).trans first).trans List.perm_middle.symm

/-- Where nothing was executed, there is no order. -/
theorem order_nil : order [] = [] := by
  simp only [order, all, Named.sorted, sortBy, List.flatMap_nil, List.mergeSort_nil, List.map_nil]

/-- The first free number after tasks that are numbered one after another. -/
theorem nextIndex_recordAll {d : RunData} {ts : List (String × Task)}
    (numbers : ts.map (fun u => u.2.index) = List.range' d.nextIndex ts.length) :
    (d.recordAll ts).nextIndex = d.nextIndex + ts.length := by
  induction ts generalizing d with
  | nil => rfl
  | cons u ts ih =>
    rw [List.map_cons, List.length_cons, List.range'_succ] at numbers
    obtain ⟨index, rest⟩ := List.cons.inj numbers
    have next := nextIndex_record_next (d := d) u.1 index
    have last := ih (d := d.record u.1 u.2) (by rw [next]; exact rest)
    rw [next] at last
    rw [List.length_cons]
    exact last.trans (by omega)

/-- **Tasks that are numbered one after another come in this order, after those that were
there.** -/
theorem order_recordAll {d : RunData} {ts : List (String × Task)}
    (distinct : (d.all.map fun u => u.2.index).Nodup)
    (numbers : ts.map (fun u => u.2.index) = List.range' d.nextIndex ts.length) :
    (d.recordAll ts).order = d.order ++ ts.map Prod.fst := by
  have total : ∀ u v : String × Task,
      (decide (u.2.index ≤ v.2.index) || decide (v.2.index ≤ u.2.index)) = true := by
    intro u v
    simpa only [Bool.or_eq_true, decide_eq_true_eq] using Nat.le_total u.2.index v.2.index
  have trans : ∀ u v z : String × Task, decide (u.2.index ≤ v.2.index) = true →
      decide (v.2.index ≤ z.2.index) = true → decide (u.2.index ≤ z.2.index) = true := by
    intro u v z
    simpa only [decide_eq_true_eq] using Nat.le_trans
  have sorted : ∀ l : List (String × Task), (l.mergeSort fun u v => u.2.index ≤ v.2.index).Pairwise
      fun u v => u.2.index ≤ v.2.index := by
    intro l
    exact (List.pairwise_mergeSort trans total l).imp fun h => of_decide_eq_true h
  have above : ∀ u ∈ ts, d.nextIndex ≤ u.2.index := by
    intro u hu
    have index : u.2.index ∈ List.range' d.nextIndex ts.length := by
      rw [← numbers]
      exact List.mem_map_of_mem hu
    exact (List.mem_range'_1.1 index).1
  have later : ts.Pairwise fun u v => u.2.index < v.2.index := by
    refine List.pairwise_map.1 (?_ : (ts.map fun u => u.2.index).Pairwise (· < ·))
    rw [numbers]
    exact List.pairwise_lt_range'
  have together : ((d.all.mergeSort fun u v => u.2.index ≤ v.2.index) ++ ts).Pairwise
      fun u v => u.2.index ≤ v.2.index := by
    refine List.pairwise_append.2 ⟨sorted d.all, later.imp Nat.le_of_lt, fun u hu v hv => ?_⟩
    exact Nat.le_trans (Nat.le_of_lt (index_lt_nextIndex ((List.mergeSort_perm _ _).mem_iff.1 hu)))
      (above v hv)
  have perm : ((d.recordAll ts).all.mergeSort fun u v => u.2.index ≤ v.2.index).Perm
      ((d.all.mergeSort fun u v => u.2.index ≤ v.2.index) ++ ts) :=
    ((List.mergeSort_perm _ _).trans (all_recordAll_perm d ts)).trans
      ((List.mergeSort_perm _ _).symm.append_right ts)
  -- No two of the tasks have one number, so there is only one way to put them in order.
  have unique : ((d.recordAll ts).all.map fun u => u.2.index).Nodup := by
    rw [((all_recordAll_perm d ts).map _).nodup_iff, List.map_append, numbers]
    refine List.nodup_append.2 ⟨distinct, List.nodup_range', fun i hi j hj => ?_⟩
    obtain ⟨u, hu, rfl⟩ := List.mem_map.1 hi
    exact Nat.ne_of_lt (Nat.lt_of_lt_of_le (index_lt_nextIndex hu) (List.mem_range'_1.1 hj).1)
  have same :=
    List.Perm.eq_of_pairwise (fun u v hu hv le ge => ?_) (sorted (d.recordAll ts).all) together perm
  · rw [order, same, List.map_append, ← order]
  · have hu' := (List.mergeSort_perm _ _).mem_iff.1 hu
    have hv' := (List.mergeSort_perm _ _).mem_iff.1 (perm.mem_iff.2 hv)
    exact List.inj_on_of_nodup_map unique hu' hv' (Nat.le_antisymm le ge)

end RunData

/-! ## Tasks but for their times -/

/-- The task without when it began and how long it took. -/
def Task.untimed (t : Task) : Task := { t with startTime := ⟨0, 0⟩, elapsed := 0 }

namespace RunData

/-- Tasks without when they began and how long they took. -/
def untimed (d : RunData) : RunData := d.map fun p => (p.1, p.2.map Task.untimed)

theorem untimed_record (d : RunData) (node : String) (t : Task) :
    (d.record node t).untimed = d.untimed.record node t.untimed := by
  refine Named.map_update d node fun ts => ?_
  rw [List.map_append]
  cases ts <;> rfl

/-- Times do not count for the numbers of tasks. -/
theorem nextIndex_untimed (d : RunData) : d.untimed.nextIndex = d.nextIndex := by
  have numbers : ∀ d : RunData,
      d.nextIndex = ((d.flatMap fun p => p.2.map fun t => t.index + 1)).foldl max 0 := by
    intro d
    rw [nextIndex, foldl_max_perm ((all_perm d).map _), List.map_flatMap]
    simp only [List.map_map, Function.comp_def]
  rw [numbers, numbers, untimed, List.flatMap_map]
  simp only [List.map_map, Function.comp_def, Task.untimed]

end RunData

end Conveyor
