/-
What the search for a pattern finds.

A program goes from places to places, a place being an instruction and a position in the text. The
search goes to no place twice, so it has to be shown that what it skips could not have succeeded.
The invariant is `Pending`: no place that was tried is the end of the program, and every step from
one leads to a place that was tried or that a branch still waits at. When the branches that wait all
fail, so does every place that was tried (`Pending.fails`); in particular when none is left. The
fuel lasts because a step takes a branch off, or marks a place and puts at most two branches for
one.
-/
import Conveyor.Regex.Match
import Mathlib.Data.List.Basic

set_option autoImplicit false

namespace Conveyor.Regex

/-! ## Runs of a program -/

/-- Where a branch goes on. -/
def Branch.place (b : Branch) : Nat × Nat := (b.instr, b.pos)

/-- The places one step leads to. -/
def onward (prog : Program) (text : Array Char) (p : Nat × Nat) : List (Nat × Nat) :=
  match prog[p.1]? with
  | some (.read s next) => if text[p.2]?.any s.has then [(next, p.2 + 1)] else []
  | some (.fork first second) => [(first, p.2), (second, p.2)]
  | some (.save _ next) => [(next, p.2)]
  | some (.check a next) => if a.holds ⟨text, p.2⟩ then [(next, p.2)] else []
  | some .done => []
  | none => []

/-- From a place the program can get to its end. -/
inductive Succeeds (prog : Program) (text : Array Char) : Nat × Nat → Prop
  | done {p : Nat × Nat} (here : prog[p.1]? = some .done) : Succeeds prog text p
  | step {p q : Nat × Nat} (mem : q ∈ onward prog text p) (h : Succeeds prog text q) :
    Succeeds prog text p

variable {prog : Program} {text : Array Char} {seen : Array Bool} {p q : Nat × Nat} {b : Branch}
  {branches : List Branch} {waiting : List (Nat × Nat)}

theorem onward_inside (inside : p.2 ≤ text.size) (mem : q ∈ onward prog text p) :
    q.2 ≤ text.size := by
  -- Only reading a character moves on in the text, and there is one to be read.
  unfold onward at mem
  split at mem
  · split at mem
    · next reads =>
      obtain ⟨c, found, -⟩ := (Option.any_eq_true _ _).1 reads
      have : p.2 < text.size := (Array.getElem?_eq_some_iff.1 found).1
      rw [List.mem_singleton.1 mem]
      omega
    · exact absurd mem List.not_mem_nil
  · rcases List.mem_cons.1 mem with rfl | mem
    · exact inside
    · rw [List.mem_singleton.1 mem]
      exact inside
  · rw [List.mem_singleton.1 mem]
    exact inside
  · split at mem
    · rw [List.mem_singleton.1 mem]
      exact inside
    · exact absurd mem List.not_mem_nil
  · exact absurd mem List.not_mem_nil
  · exact absurd mem List.not_mem_nil

theorem length_onward_le : (onward prog text p).length ≤ 2 := by
  unfold onward
  split
  · split <;> simp
  · simp
  · simp
  · split <;> simp
  · simp
  · simp

/-! ## Places that were tried -/

/-- The number under which the search notes a place. -/
def key (text : Array Char) (p : Nat × Nat) : Nat := p.1 * (text.size + 1) + p.2

/-- The search does not go to a place again. -/
def Tried (text : Array Char) (seen : Array Bool) (p : Nat × Nat) : Prop :=
  seen.getD (key text p) true = true

instance : Decidable (Tried text seen p) := inferInstanceAs (Decidable (_ = _))

/-- Notes a place. -/
def tried (text : Array Char) (seen : Array Bool) (p : Nat × Nat) : Array Bool :=
  seen.setIfInBounds (key text p) true

theorem key_inj (hp : p.2 ≤ text.size) (hq : q.2 ≤ text.size) (same : key text p = key text q) :
    p = q := by
  have position : p.2 = q.2 := by
    have := congrArg (· % (text.size + 1)) same
    simpa [key, Nat.mul_add_mod_of_lt, Nat.mod_eq_of_lt, Nat.lt_succ_of_le hp,
      Nat.lt_succ_of_le hq] using this
  have instruction : p.1 = q.1 := by
    rw [key, key, position] at same
    exact Nat.eq_of_mul_eq_mul_right (Nat.succ_pos _) (Nat.add_right_cancel same)
  exact Prod.ext instruction position

theorem tried_iff (inside : p.2 ≤ text.size) (inside' : q.2 ≤ text.size) :
    Tried text (tried text seen p) q ↔ q = p ∨ Tried text seen q := by
  unfold Tried tried
  rw [Array.getD_eq_getD_getElem?, Array.getD_eq_getD_getElem?, Array.getElem?_setIfInBounds]
  by_cases same : key text p = key text q
  · have := key_inj inside inside' same
    simp only [if_true, this, true_or, iff_true]
    split <;> rfl
  · have : q ≠ p := fun h => same (h ▸ rfl)
    simp only [same, if_false, this, false_or]

theorem count_tried (fresh : ¬Tried text seen p) :
    (tried text seen p).count false + 1 = seen.count false := by
  have inBounds : key text p < seen.size := by
    by_contra out
    apply fresh
    rw [Tried, Array.getD_eq_getD_getElem?, Array.getElem?_eq_none (by omega)]
    rfl
  have unset : seen[key text p] = false := by
    rw [Tried, Array.getD_eq_getD_getElem?, Array.getElem?_eq_getElem inBounds] at fresh
    simpa using fresh
  have : 0 < seen.count false := Array.count_pos_iff.2 (unset ▸ Array.getElem_mem inBounds)
  rw [tried, Array.setIfInBounds, dif_pos inBounds, Array.count_set, unset]
  simp
  omega

/-! ## The search -/

/-- The branches that wait are all that is left to do for the places that were tried. -/
structure Pending (prog : Program) (text : Array Char) (seen : Array Bool)
    (waiting : List (Nat × Nat)) : Prop where
  inside : ∀ p ∈ waiting, p.2 ≤ text.size
  notDone : ∀ p, p.2 ≤ text.size → Tried text seen p → prog[p.1]? ≠ some .done
  onward : ∀ p, p.2 ≤ text.size → Tried text seen p →
    ∀ q ∈ onward prog text p, Tried text seen q ∨ q ∈ waiting

theorem Pending.fails (inv : Pending prog text seen waiting)
    (fail : ∀ q ∈ waiting, ¬Succeeds prog text q) (inside : p.2 ≤ text.size)
    (seen_p : Tried text seen p) : ¬Succeeds prog text p := by
  intro h
  induction h with
  | done here => exact inv.notDone _ inside seen_p here
  | step mem h ih =>
    rcases inv.onward _ inside seen_p _ mem with seen_q | waits
    · exact ih (onward_inside inside mem) seen_q
    · exact fail _ waits h

theorem Pending.drop (inv : Pending prog text seen (p :: waiting)) (seen_p : Tried text seen p) :
    Pending prog text seen waiting where
  inside q mem := inv.inside q (List.mem_cons_of_mem _ mem)
  notDone := inv.notDone
  onward q inside seen_q r mem := by
    rcases inv.onward q inside seen_q r mem with h | h
    · exact .inl h
    · rcases List.mem_cons.1 h with rfl | h
      · exact .inl seen_p
      · exact .inr h

theorem Pending.try (inv : Pending prog text seen (p :: waiting))
    (notDone : prog[p.1]? ≠ some .done) :
    Pending prog text (tried text seen p) (Regex.onward prog text p ++ waiting) := by
  have inside := inv.inside p List.mem_cons_self
  refine ⟨fun q mem => ?_, fun q inside' seen_q => ?_, fun q inside' seen_q r mem => ?_⟩
  · rcases List.mem_append.1 mem with mem | mem
    · exact onward_inside inside mem
    · exact inv.inside q (List.mem_cons_of_mem _ mem)
  · rcases (tried_iff inside inside').1 seen_q with rfl | seen_q
    · exact notDone
    · exact inv.notDone q inside' seen_q
  · rcases (tried_iff inside inside').1 seen_q with rfl | seen_q
    · exact .inr (List.mem_append_left _ mem)
    · have seen_r : Tried text (tried text seen p) r ↔ r = p ∨ Tried text seen r :=
        tried_iff inside (onward_inside inside' mem)
      rcases inv.onward q inside' seen_q r mem with h | h
      · exact .inl (seen_r.2 (.inr h))
      · rcases List.mem_cons.1 h with rfl | h
        · exact .inl (seen_r.2 (.inl rfl))
        · exact .inr (List.mem_append_right _ h)

theorem tryBranches_skip (fuel : Nat) (seen_b : Tried text seen b.place) :
    tryBranches prog text (fuel + 1) seen (b :: branches)
      = tryBranches prog text fuel seen branches := by
  rw [tryBranches]
  exact if_pos seen_b

theorem tryBranches_done (fuel : Nat) (fresh : ¬Tried text seen b.place)
    (here : prog[b.instr]? = some .done) :
    tryBranches prog text (fuel + 1) seen (b :: branches) = .ok (b.pos, b.slots) := by
  rw [tryBranches]
  simp only [here]
  exact if_neg fresh

/-- One step of the search: the place is noted, and branches at the places after it come first. -/
theorem tryBranches_step (fuel : Nat) (branches : List Branch) (fresh : ¬Tried text seen b.place)
    (notDone : prog[b.instr]? ≠ some .done) :
    ∃ more : List Branch, more.map Branch.place = onward prog text b.place ∧
      tryBranches prog text (fuel + 1) seen (b :: branches) =
        tryBranches prog text fuel (tried text seen b.place) (more ++ branches) := by
  rw [tryBranches]
  simp only [Branch.place, onward]
  rw [if_neg (show ¬seen.getD (b.instr * (text.size + 1) + b.pos) true = true from fresh)]
  -- The branches that come first are those to which the instruction leads.
  match here : prog[b.instr]? with
  | none => exact ⟨[], rfl, rfl⟩
  | some .done => exact absurd here notDone
  | some (.fork first second) =>
    exact ⟨[⟨first, b.pos, b.slots⟩, ⟨second, b.pos, b.slots⟩], rfl, rfl⟩
  | some (.save slot next) => exact ⟨[⟨next, b.pos, (slot, b.pos) :: b.slots⟩], rfl, rfl⟩
  | some (.check a next) =>
    by_cases holds : a.holds ⟨text, b.pos⟩
    · exact ⟨[⟨next, b.pos, b.slots⟩], by simp [holds, Branch.place], by simp [holds]; rfl⟩
    · exact ⟨[], by simp [holds], by simp [holds]; rfl⟩
  | some (.read s next) =>
    match found : text[b.pos]? with
    | none => exact ⟨[], by simp, rfl⟩
    | some c =>
      by_cases reads : s.has c
      · exact ⟨[⟨next, b.pos + 1, b.slots⟩], by simp [reads, Branch.place], by
          simp only [reads]; rfl⟩
      · exact ⟨[], by simp [reads], by simp only [reads]; rfl⟩

/-- What trying branches comes to: a success is one of some branch, and a failure is one of all of
them, after which the next search may go on from what was noted. -/
def Outcome (prog : Program) (text : Array Char) (seen : Array Bool) (branches : List Branch) :
    Except (Array Bool) (Nat × List (Nat × Nat)) → Prop
  | .ok _ => ∃ b ∈ branches, Succeeds prog text b.place
  | .error seen' => Pending prog text seen' [] ∧ seen'.size = seen.size ∧
    ∀ b ∈ branches, ¬Succeeds prog text b.place

namespace Outcome

variable {result : Except (Array Bool) (Nat × List (Nat × Nat))}

/-- A place that was tried before succeeds only if one of the branches behind it does. -/
theorem skip (h : Outcome prog text seen branches result)
    (inv : Pending prog text seen (branches.map Branch.place)) (inside : b.pos ≤ text.size)
    (seen_b : Tried text seen b.place) : Outcome prog text seen (b :: branches) result := by
  cases result with
  | ok found =>
    obtain ⟨b', mem, h⟩ := h
    exact ⟨b', List.mem_cons_of_mem _ mem, h⟩
  | error seen' =>
    obtain ⟨inv', size, fail⟩ := h
    refine ⟨inv', size, List.forall_mem_cons.2 ⟨?_, fail⟩⟩
    exact inv.fails (List.forall_mem_map.2 fail) inside seen_b

/-- A place that is not the end succeeds exactly if one of the branches at the places after it
does. -/
theorem step {more : List Branch} (places : more.map Branch.place = onward prog text b.place)
    (notDone : prog[b.instr]? ≠ some .done)
    (h : Outcome prog text (tried text seen b.place) (more ++ branches) result) :
    Outcome prog text seen (b :: branches) result := by
  -- Either a branch has found a match, and the match is one of this place too; or none has, and
  -- none could from here.
  cases result with
  | ok found =>
    obtain ⟨b', mem, h⟩ := h
    rcases List.mem_append.1 mem with mem | mem
    · exact ⟨b, List.mem_cons_self, .step (places ▸ List.mem_map_of_mem mem) h⟩
    · exact ⟨b', List.mem_cons_of_mem _ mem, h⟩
  | error seen' =>
    obtain ⟨inv, size, fail⟩ := h
    have fails_b : ¬Succeeds prog text b.place := by
      intro h
      cases h with
      | done here => exact notDone here
      | step mem h =>
        rw [← places] at mem
        obtain ⟨b', mem', rfl⟩ := List.mem_map.1 mem
        exact fail b' (List.mem_append_left _ mem') h
    exact ⟨inv, size.trans (by simp [tried]),
      List.forall_mem_cons.2 ⟨fails_b, fun b' mem => fail b' (List.mem_append_right _ mem)⟩⟩

end Outcome

theorem tryBranches_outcome (fuel : Nat) (inv : Pending prog text seen (branches.map Branch.place))
    (enough : 3 * seen.count false + branches.length < fuel) :
    Outcome prog text seen branches (tryBranches prog text fuel seen branches) := by
  -- By induction on the fuel; what is carried along is `Pending` and the bound on what is left to
  -- do.
  induction fuel generalizing seen branches with
  | zero => omega
  | succ fuel ih =>
    match branches with
    | [] => exact ⟨inv, rfl, fun _ mem => absurd mem List.not_mem_nil⟩
    | b :: rest =>
      rw [List.length_cons] at enough
      by_cases seen_b : Tried text seen b.place
      · have rest_inv := inv.drop seen_b
        rw [tryBranches_skip fuel seen_b]
        exact (ih rest_inv (by omega)).skip rest_inv (inv.inside b.place List.mem_cons_self) seen_b
      · by_cases here : prog[b.instr]? = some .done
        · rw [tryBranches_done fuel seen_b here]
          exact ⟨b, List.mem_cons_self, .done here⟩
        · obtain ⟨more, places, step⟩ := tryBranches_step fuel rest seen_b here
          have more_inv := inv.try here
          rw [← places, ← List.map_append] at more_inv
          have length : more.length ≤ 2 := by
            rw [← List.length_map (f := Branch.place), places]
            exact length_onward_le
          have left := count_tried seen_b
          rw [step]
          exact (ih more_inv (by rw [List.length_append]; omega)).step places here

theorem searchFrom_isSome_iff (start n pos : Nat) (inv : Pending prog text seen [])
    (room : pos + n ≤ text.size + 1) : (searchFrom prog start text n pos seen).isSome = true ↔
      ∃ k, pos ≤ k ∧ k < pos + n ∧ Succeeds prog text (start, k) := by
  induction n generalizing pos seen with
  | zero => simp [searchFrom]; omega
  | succ n ih =>
    have first_inv : Pending prog text seen ([⟨start, pos, []⟩].map Branch.place) :=
      ⟨fun p mem => by rw [List.mem_singleton.1 mem]; simp only [Branch.place]; omega, inv.notDone,
        fun p inside seen_p q mem => (inv.onward p inside seen_p q mem).imp_right fun h =>
          absurd h List.not_mem_nil⟩
    have enough : 3 * seen.count false + [(⟨start, pos, []⟩ : Branch)].length
        < 3 * seen.size + 3 := by
      have : seen.count false ≤ seen.size := Array.count_le_size
      rw [List.length_singleton]
      omega
    have outcome := tryBranches_outcome _ first_inv enough
    rw [searchFrom]
    cases result : tryBranches prog text (3 * seen.size + 3) seen [⟨start, pos, []⟩] with
    | ok found =>
      rw [result] at outcome
      obtain ⟨b, mem, h⟩ := outcome
      rw [List.mem_singleton.1 mem] at h
      exact iff_of_true rfl ⟨pos, by omega, by omega, h⟩
    | error seen' =>
      rw [result] at outcome
      obtain ⟨inv', size, fail⟩ := outcome
      have here : ¬Succeeds prog text (start, pos) := fail _ (List.mem_singleton.2 rfl)
      -- No branch is left, so the next position can go on from what was noted.
      refine (ih (pos + 1) inv' (by omega)).trans
        ⟨fun ⟨k, low, high, h⟩ => ⟨k, by omega, by omega, h⟩, ?_⟩
      intro ⟨k, low, high, h⟩
      have : k ≠ pos := fun same => here (same ▸ h)
      exact ⟨k, by omega, by omega, h⟩

/-- A pattern as a program, and where it starts. -/
def Pattern.program (p : Pattern) : Nat × Program := layout p.tree 0 #[.done]

/-- At first, nothing was tried but what is outside the program. -/
theorem pending_nil (prog : Program) (text : Array Char) :
    Pending prog text (Array.replicate (prog.size * (text.size + 1)) false) [] := by
  have outside : ∀ p : Nat × Nat, p.2 ≤ text.size →
      Tried text (Array.replicate (prog.size * (text.size + 1)) false) p → prog[p.1]? = none := by
    intro p inside seen_p
    refine Array.getElem?_eq_none (Nat.le_of_not_lt fun inBounds => ?_)
    have : key text p < prog.size * (text.size + 1) := by
      calc p.1 * (text.size + 1) + p.2
          < p.1 * (text.size + 1) + (text.size + 1) := by omega
        _ = (p.1 + 1) * (text.size + 1) := (Nat.succ_mul _ _).symm
        _ ≤ prog.size * (text.size + 1) := Nat.mul_le_mul_right _ inBounds
    rw [Tried, Array.getD_eq_getD_getElem?, Array.getElem?_replicate, if_pos this] at seen_p
    exact absurd seen_p Bool.false_ne_true
  refine ⟨fun _ mem => absurd mem List.not_mem_nil, fun p inside seen_p => ?_,
    fun p inside seen_p q mem => ?_⟩
  · rw [outside p inside seen_p]
    exact nofun
  · rw [onward, outside p inside seen_p] at mem
    exact absurd mem List.not_mem_nil

/-- **A pattern matches exactly if its program can get from its start to its end somewhere in the
text.** -/
theorem Pattern.isMatch_iff (p : Pattern) (s : String) :
    p.isMatch s = true ↔
      ∃ k ≤ s.toList.length, Succeeds p.program.2 s.toList.toArray (p.program.1, k) := by
  have found := searchFrom_isSome_iff p.program.1 (s.toList.toArray.size + 1) 0
    (pending_nil p.program.2 s.toList.toArray) (by omega)
  rw [List.size_toArray] at found
  exact found.trans ⟨fun ⟨k, _, high, h⟩ => ⟨k, by omega, h⟩,
    fun ⟨k, high, h⟩ => ⟨k, Nat.zero_le _, by omega, h⟩⟩

end Conveyor.Regex
