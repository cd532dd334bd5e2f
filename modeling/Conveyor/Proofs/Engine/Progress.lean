/-
A run comes to rest.

`Engine.advance` takes as many steps as a phase allows at most. That number is an upper bound, and
the last of these steps may change nothing. Here it is shown that a run rests after it, whatever its
nodes do: it has ended, or a node waits for a cancellation that has not come. So it does not matter
how many steps are taken beyond that, nor whether one is taken before: `advance_step` is how a run
is followed step by step.
-/
import Conveyor.Proofs.Engine.Turn

set_option autoImplicit false

namespace Conveyor

/-- How many steps a phase may go on for. -/
def Phase.toGo : Phase → Nat
  | ready p => p.left + 1
  | lingering p .. => if p.canceled then p.left + 2 else 0
  | stopped .. | broken _ => 0

theorem Phase.toGo_le_bound (φ : Phase) : φ.toGo ≤ φ.bound := by
  cases φ with
  | lingering p n en r =>
    simp only [toGo, bound]
    split <;> omega
  | ready => exact Nat.le_refl _
  | stopped => exact Nat.le_refl _
  | broken => exact Nat.le_refl _

namespace Engine

variable {e : Engine} {x : Execution} {φ φ' : Phase}

/-- The pass in which a node is executed has fewer steps to go. -/
theorem Works.toGo {en : Entry} {n : Node} {q : Pass} {a : Attempt} (works : Works e x φ en n q a) :
    q.left + 1 < φ.toGo := by
  cases works with
  | taken going top left =>
    rw [Phase.toGo, left]
    omega
  | lingered canceled =>
    rw [Phase.toGo, if_pos canceled]
    omega

theorem Works.going {p q : Pass} {en : Entry} {n : Node} {a : Attempt}
    (works : Works e x (.ready p) en n q a) : p.canceled = false := by
  cases works with
  | taken going => exact going

/-- A turn changes nothing or brings a run closer to its rest. -/
theorem Turn.toGo (turn : Turn e x φ φ') : φ' = φ ∨ φ'.toGo < φ.toGo := by
  -- An entry that is taken is one less to go; what ends the run leaves nothing to go at all.
  cases turn with
  | still => exact .inl rfl
  | ended => exact .inr (Nat.succ_pos _)
  | refused => exact .inr (Nat.succ_pos _)
  | bypassed _ _ left =>
    right
    simp only [Phase.toGo, left]
    omega
  | lingers works canceled =>
    right
    simp only [Phase.toGo, canceled, works.going, Bool.false_eq_true, if_false]
    omega
  | breaks works =>
    have := works.toGo
    right
    simp only [Phase.toGo] at this ⊢
    omega
  | failed records =>
    obtain ⟨_, _, works, _⟩ := records.works
    have := works.toGo
    right
    simp only [Phase.toGo] at this ⊢
    omega
  | @completed _ q q' en n t s records _ _ _ left =>
    obtain ⟨_, _, works, _⟩ := records.works
    have := works.toGo
    right
    show q'.left + 1 < φ.toGo
    rw [left]
    exact this
  | paused records =>
    obtain ⟨_, _, works, _⟩ := records.works
    have := works.toGo
    right
    simp only [Phase.toGo] at this ⊢
    omega

/-! ## Whatever hooks do

Hooks may change the state of a run, but not how many entries it may still take. -/

theorem toGo_conclude (e : Engine) (x : Execution) (p : Pass) (n : Node) (en : Entry)
    (r : NodeResult) : (e.conclude x p n en r).toGo ≤ p.left + 1 := by
  simp only [conclude]
  split
  · exact Nat.zero_le _
  · simp only [pause]
    split
    · split
      · exact Nat.zero_le _
      · exact Nat.le_refl _
    · exact Nat.le_refl _

theorem toGo_execute (e : Engine) (x : Execution) {p : Pass} (free : p.canceled = false) (n : Node)
    (en : Entry) : (e.execute x p n en).toGo ≤ p.left + 1 := by
  simp only [execute]
  split
  · exact toGo_conclude e x _ n en _
  · exact toGo_conclude e x _ n en _
  · simp only [Phase.toGo, Pass.callHooks, free, Bool.false_eq_true, if_false]
    exact Nat.zero_le _
  · exact Nat.zero_le _

theorem toGo_take (e : Engine) (x : Execution) {p : Pass} (free : p.canceled = false) (en : Entry) :
    (e.take x p en).toGo ≤ p.left := by
  simp only [take]
  split
  · exact Nat.zero_le _
  · rename_i left spent
    rw [spent]
    split
    · exact Nat.zero_le _
    · split
      · exact Nat.le_refl _
      · exact toGo_execute e x (p := { p with left := left }) free _ en

/-- A run that may go on comes closer to its rest. -/
theorem toGo_step_lt (e : Engine) (x : Execution) (going : 0 < φ.toGo) :
    (e.step x φ).toGo < φ.toGo := by
  cases φ with
  | ready p =>
    simp only [step]
    split
    · exact Nat.succ_pos _
    · rename_i free
      split
      · exact Nat.succ_pos _
      · rename_i en rest top
        have free : (p.withAgenda { p.state.agenda with stack := rest }).canceled = false :=
          Bool.not_eq_true _ ▸ free
        exact Nat.lt_succ_of_le (toGo_take e x free en)
  | lingering p n en r =>
    have canceled : p.canceled = true := by
      cases canceled : p.canceled with
      | true => rfl
      | false =>
        simp only [Phase.toGo, canceled, Bool.false_eq_true, if_false, Nat.lt_irrefl] at going
    simp only [step, canceled, if_true, Phase.toGo]
    exact Nat.lt_succ_of_le (toGo_conclude e x p n en r)
  | stopped p c => exact absurd going (Nat.lt_irrefl 0)
  | broken message => exact absurd going (Nat.lt_irrefl 0)

/-! ## Taking more steps than are needed -/

theorem steps_of_rest (rest : e.step x φ = φ) (n : Nat) : e.steps x n φ = φ := by
  induction n with
  | zero => rfl
  | succ n ih => rw [steps, rest, ih]

theorem steps_add (e : Engine) (x : Execution) (m n : Nat) (φ : Phase) :
    e.steps x (m + n) φ = e.steps x n (e.steps x m φ) := by
  induction m generalizing φ with
  | zero => rw [Nat.zero_add, steps]
  | succ m ih => rw [Nat.succ_add, steps, ih, steps]

/-- **A run rests after the steps it has to go.** -/
theorem step_steps_of_toGo (hk : e.Watched) {n : Nat} (enough : φ.toGo ≤ n) :
    e.step x (e.steps x n φ) = e.steps x n φ := by
  induction n generalizing φ with
  | zero =>
    rcases (turn_step hk x φ).toGo with rest | closer
    · exact rest
    · omega
  | succ n ih =>
    rw [steps]
    rcases (turn_step hk x φ).toGo with rest | closer
    · rw [rest, steps_of_rest rest, rest]
    · exact ih (by omega)

theorem steps_eq_advance (hk : e.Watched) {n : Nat} (enough : φ.toGo ≤ n) :
    e.steps x n φ = e.advance x φ := by
  have rests := step_steps_of_toGo hk (x := x) enough
  have rests' := step_steps_of_toGo hk (x := x) φ.toGo_le_bound
  rw [advance]
  rcases Nat.le_total n φ.bound with le | le
  · rw [← Nat.add_sub_cancel' le, steps_add, steps_of_rest rests]
  · rw [← Nat.add_sub_cancel' le, steps_add, steps_of_rest rests']

/-- A run advances to the same phase after its next step. -/
theorem advance_step (hk : e.Watched) (x : Execution) (φ : Phase) :
    e.advance x (e.step x φ) = e.advance x φ := by
  have closer : (e.step x φ).toGo ≤ φ.toGo := by
    rcases (turn_step hk x φ).toGo with rest | closer
    · exact Nat.le_of_eq (congrArg Phase.toGo rest)
    · exact Nat.le_of_lt closer
  rw [← steps_eq_advance hk closer, ← steps_eq_advance hk (Nat.le_succ φ.toGo), steps]

end Engine

end Conveyor
