/-
The loop over the stack, written as a recursion over the nodes.

A run takes the entry on top of its stack and puts on top of the rest what that entry has made
ready. This is how a recursion is written without recursion: an entry is visited by executing it, or
handing its items on, and then visiting what it has made ready, one after the other in the order of
their places, and only then the entries beside it. `visitAll` is that recursion. It has no stack, it
knows of no pause, no cancellation and no allowance, and a node that fails has nothing to hand on;
what is threaded through it is the pass, so that a join which is looked at in a late branch sees the
outputs of the earlier ones.

On a cycle the recursion does not come to an end, hence the fuel. Without it, `Visits` says that the
recursion comes to an end and where, and `Heads` that some entries are the first it visits, whether
it ends or not. Both depend on the lists of entries only through their concatenation
(`visits_append`, `heads_append`), which is what allows a loop to keep all that is still to be
visited on one stack.
-/
import Conveyor.Proofs.Engine.Delivery
import Conveyor.Proofs.Engine.Turn

set_option autoImplicit false

namespace Conveyor

/-! ## Passes that differ in what the loop keeps for itself -/

namespace Pass

/-- The pass with another stack, another allowance and another flag for its cancellation. -/
def frame (p : Pass) (stack : List Entry) (left : Nat) (canceled : Bool) : Pass :=
  { p with state := p.state.withStack stack, left := left, canceled := canceled }

/-- The pass without what only the loop needs. -/
def bare (p : Pass) : Pass := p.frame [] 0 false

/-- The pass with further entries at the bottom of its stack. -/
def below (p : Pass) (rest : List Entry) : Pass :=
  p.frame (p.state.agenda.stack ++ rest) p.left p.canceled

/-- The pass with entries on top of its stack. -/
def push (p : Pass) (entries : List Entry) : Pass :=
  p.frame (entries ++ p.state.agenda.stack) p.left p.canceled

theorem frame_self (p : Pass) : p.frame p.state.agenda.stack p.left p.canceled = p := rfl

end Pass

namespace Engine

/-! ## The recursion -/

/-- Keeps the output of a node; tells which entries it makes ready, in the order of their places. -/
def keep (x : Execution) (p : Pass) (node : String) (output : List Items) : Pass × List Entry :=
  ((p.withAgenda (x.graph.complete p.state.agenda node output)).frame p.state.agenda.stack p.left
    p.canceled, x.graph.pushes p.state.agenda node output)

/-- What the result of an execution leaves and makes ready; a failure makes nothing ready. -/
def work (e : Engine) (x : Execution) (p : Pass) (n : Node) (en : Entry) (r : NodeResult) :
    Pass × List Entry :=
  let t := e.taskOf p en (r.settle n.onError (e.registry.outputs n.type))
  let p := e.record p n t
  match t.status with
  | .error => (p, [])
  | .success => keep x p n.name t.output

/-- Executes an entry, or hands its items on if its node is disabled. A node that is not there does
nothing, and one that breaks down leaves nothing behind. -/
def handle (e : Engine) (x : Execution) (p : Pass) (en : Entry) : Pass × List Entry :=
  match x.graph.node? en.node with
  | none => (p, [])
  | some n =>
    if n.disabled then keep x p n.name [en.inputs.headD []]
    else
      let p := p.callHooks (.nodeStarts n.name) (e.hooks.map fun h => h.nodeStarts n.name)
      match e.attempt x p.state n en with
      | .returns r | .cancelsRun r | .lingers r => e.work x p n en r
      | .breaks _ => (p, [])

/-- Where a recursion has got to. -/
@[ext]
structure Tour where
  pass : Pass
  /-- The entries that were visited, the first one first. -/
  path : List Entry
  /-- The recursion has come to its end. -/
  whole : Bool

/-- Goes on from where a recursion has come to its end. -/
def Tour.andThen (t : Tour) (next : Pass → Tour) : Tour :=
  if t.whole then { next t.pass with path := t.path ++ (next t.pass).path } else t

/-- Visits entries one after the other. An entry is handled, then what it has made ready is visited,
and then the entries beside it. -/
def visitAll (e : Engine) (x : Execution) : (fuel : Nat) → Pass → List Entry → Tour
  | _, p, [] => ⟨p, [], true⟩
  | 0, p, _ :: _ => ⟨p, [], false⟩
  | fuel + 1, p, en :: ens =>
    let handled := e.handle x p en
    let tour := (e.visitAll x fuel handled.1 handled.2).andThen fun p => e.visitAll x fuel p ens
    { tour with path := en :: tour.path }

/-- The recursion on some entries comes to an end after visiting a path. -/
def Visits (e : Engine) (x : Execution) (p : Pass) (ens path : List Entry) (q : Pass) : Prop :=
  ∃ fuel, e.visitAll x fuel p ens = ⟨q, path, true⟩

/-- The recursion on some entries begins with a path. -/
def Heads (e : Engine) (x : Execution) (p : Pass) (ens path : List Entry) : Prop :=
  ∃ fuel, path <+: (e.visitAll x fuel p ens).path

variable {e : Engine} {x : Execution} {p q : Pass} {en : Entry} {ens ens' path path' : List Entry}

@[simp] theorem visitAll_nil (fuel : Nat) : e.visitAll x fuel p [] = ⟨p, [], true⟩ := by
  cases fuel <;> rfl

/-- A recursion that is the same if it has come to its end, and goes further if it has not. -/
structure Tour.Within (t u : Tour) : Prop where
  same : t.whole = true → u = t
  further : t.path <+: u.path

theorem Tour.Within.refl (t : Tour) : t.Within t := ⟨fun _ => rfl, List.prefix_rfl⟩

theorem Tour.Within.trans {t u v : Tour} (h : t.Within u) (h' : u.Within v) : t.Within v :=
  ⟨fun whole => (h'.same (by rw [h.same whole]; exact whole)).trans (h.same whole),
    h.further.trans h'.further⟩

theorem Tour.Within.andThen {t u : Tour} {next next' : Pass → Tour} (within : t.Within u)
    (nexts : ∀ p, (next p).Within (next' p)) : (t.andThen next).Within (u.andThen next') := by
  cases whole : t.whole with
  -- If the first part has come to its end, more fuel changes only what comes after it.
  | true =>
    obtain rfl := within.same whole
    simp only [Tour.andThen, whole, if_true]
    exact ⟨fun ended => by simp only [(nexts u.pass).same ended],
      (List.prefix_append_right_inj _).2 (nexts u.pass).further⟩
  | false =>
    refine ⟨fun ended => ?_, ?_⟩
    · simp only [Tour.andThen, whole, Bool.false_eq_true, if_false] at ended
    · simp only [Tour.andThen, whole, Bool.false_eq_true, if_false]
      split
      · exact within.further.trans (List.prefix_append _ _)
      · exact within.further

theorem Tour.andThen_eq_whole {t : Tour} {next : Pass → Tour} :
    t.andThen next = ⟨q, path, true⟩ ↔ ∃ inner mid outer, t = ⟨mid, inner, true⟩ ∧
      next mid = ⟨q, outer, true⟩ ∧ path = inner ++ outer := by
  obtain ⟨mid, inner, whole⟩ := t
  cases whole with
  | false =>
    simp only [Tour.andThen, Bool.false_eq_true, if_false, Tour.mk.injEq, and_false, false_and,
      exists_false]
  | true =>
    generalize after : next mid = u
    obtain ⟨last, outer, whole⟩ := u
    simp only [Tour.andThen, if_true, after, Tour.mk.injEq]
    constructor
    · rintro ⟨rfl, rfl, rfl⟩
      exact ⟨inner, mid, outer, ⟨rfl, rfl, trivial⟩, after, rfl⟩
    · rintro ⟨_, _, _, ⟨rfl, rfl, -⟩, after', rfl⟩
      obtain ⟨rfl, rfl, rfl⟩ := Tour.mk.inj (after.symm.trans after')
      exact ⟨rfl, rfl, rfl⟩

/-- What two lists in a row begin with ends in the first one or in the second. -/
theorem prefix_append_iff {α : Type} {l a b : List α} :
    l <+: a ++ b ↔ l <+: a ∨ ∃ m, m <+: b ∧ l = a ++ m := by
  constructor
  · intro begun
    rcases List.prefix_or_prefix_of_prefix begun (List.prefix_append a b) with short | ⟨m, rfl⟩
    · exact .inl short
    · exact .inr ⟨m, (List.prefix_append_right_inj a).1 begun, rfl⟩
  · rintro (short | ⟨m, begun, rfl⟩)
    · exact short.trans (List.prefix_append a b)
    · exact (List.prefix_append_right_inj a).2 begun

theorem Tour.prefix_andThen {t : Tour} {next : Pass → Tour} :
    path <+: (t.andThen next).path ↔ path <+: t.path ∨ ∃ inner mid outer, t = ⟨mid, inner, true⟩ ∧
      outer <+: (next mid).path ∧ path = inner ++ outer := by
  obtain ⟨mid, inner, whole⟩ := t
  cases whole with
  | false =>
    simp only [Tour.andThen, Bool.false_eq_true, if_false, Tour.mk.injEq, and_false, false_and,
      exists_false, or_false]
  | true =>
    simp only [Tour.andThen, if_true, prefix_append_iff, Tour.mk.injEq]
    refine or_congr Iff.rfl ⟨fun ⟨outer, begun, hpath⟩ => ?_, ?_⟩
    · exact ⟨inner, mid, outer, ⟨rfl, rfl, trivial⟩, begun, hpath⟩
    · rintro ⟨_, _, outer, ⟨rfl, rfl, -⟩, begun, hpath⟩
      exact ⟨outer, begun, hpath⟩

/-- More fuel gets a recursion further. -/
theorem visitAll_succ (fuel : Nat) (p : Pass) (ens : List Entry) :
    (e.visitAll x fuel p ens).Within (e.visitAll x (fuel + 1) p ens) := by
  induction fuel generalizing p ens with
  | zero =>
    cases ens with
    | nil => exact .refl _
    | cons en ens => exact ⟨fun whole => absurd whole Bool.false_ne_true, List.nil_prefix⟩
  | succ fuel ih =>
    cases ens with
    | nil => exact .refl _
    | cons en ens =>
      have within :=
        Tour.Within.andThen (ih (e.handle x p en).1 (e.handle x p en).2) fun q => ih q ens
      refine ⟨fun whole => ?_, List.cons_prefix_cons.2 ⟨rfl, within.further⟩⟩
      rw [visitAll, visitAll, within.same whole]

theorem visitAll_le {fuel fuel' : Nat} (le : fuel ≤ fuel') (p : Pass) (ens : List Entry) :
    (e.visitAll x fuel p ens).Within (e.visitAll x fuel' p ens) := by
  induction le with
  | refl => exact .refl _
  | step _ ih => exact ih.trans (visitAll_succ _ p ens)

/-! ### The recursion without fuel -/

theorem visits_nil : e.Visits x p [] path q ↔ path = [] ∧ q = p := by
  simp only [Visits, visitAll_nil, Tour.mk.injEq, and_true, exists_const]
  exact ⟨fun ⟨hp, hpath⟩ => ⟨hpath.symm, hp.symm⟩, fun ⟨hpath, hp⟩ => ⟨hp.symm, hpath.symm⟩⟩

/-- An entry is visited, then what it has made ready, then the entries beside it. -/
theorem visits_cons : e.Visits x p (en :: ens) path q ↔ ∃ inner mid outer,
    e.Visits x (e.handle x p en).1 (e.handle x p en).2 inner mid ∧ e.Visits x mid ens outer q ∧
      path = en :: (inner ++ outer) := by
  constructor
  · rintro ⟨fuel, visited⟩
    cases fuel with
    | zero => simp only [visitAll, Tour.mk.injEq, Bool.false_eq_true, and_false] at visited
    | succ fuel =>
      obtain ⟨hpass, rfl, hwhole⟩ := Tour.mk.inj visited
      have toured : (e.visitAll x fuel (e.handle x p en).1 (e.handle x p en).2).andThen
          (fun p => e.visitAll x fuel p ens) = ⟨q, _, true⟩ := Tour.ext hpass rfl hwhole
      obtain ⟨inner, mid, outer, inside, beside, hpath⟩ := Tour.andThen_eq_whole.1 toured
      exact ⟨inner, mid, outer, ⟨fuel, inside⟩, ⟨fuel, beside⟩, congrArg _ hpath⟩
  · rintro ⟨inner, mid, outer, ⟨fuel, inside⟩, ⟨fuel', beside⟩, rfl⟩
    -- The larger of the two amounts of fuel is enough for both parts.
    have more := (visitAll_le (Nat.le_max_left fuel fuel') (e.handle x p en).1
      (e.handle x p en).2).same (by rw [inside])
    have more' := (visitAll_le (Nat.le_max_right fuel fuel') mid ens).same (by rw [beside])
    refine ⟨max fuel fuel' + 1, ?_⟩
    simp only [visitAll, Tour.andThen, more, more', inside, beside, if_true]

/-- Visiting some entries and then others is visiting them in one go. -/
theorem visits_append : e.Visits x p (ens ++ ens') path q ↔ ∃ first mid second,
    e.Visits x p ens first mid ∧ e.Visits x mid ens' second q ∧ path = first ++ second := by
  induction ens generalizing p path with
  | nil =>
    simp only [List.nil_append, visits_nil]
    constructor
    · exact fun visits => ⟨[], p, path, ⟨rfl, rfl⟩, visits, rfl⟩
    · rintro ⟨_, _, second, ⟨rfl, rfl⟩, visits, rfl⟩
      exact visits
  | cons en ens ih =>
    rw [List.cons_append, visits_cons]
    simp only [ih, visits_cons]
    -- Both sides say where the first entry leads, where the rest of the first list does, and where
    -- the second one does.
    constructor
    · rintro ⟨inner, mid, _, visits, ⟨first, mid', second, visits', visits'', rfl⟩, rfl⟩
      exact ⟨_, mid', second, ⟨inner, mid, first, visits, visits', rfl⟩, visits'', by simp⟩
    · rintro ⟨_, mid', second, ⟨inner, mid, first, visits, visits', rfl⟩, visits'', rfl⟩
      exact ⟨inner, mid, _, visits, ⟨first, mid', second, visits', visits'', rfl⟩, by simp⟩

/-- **After an entry, what it has made ready is visited before all else.** -/
theorem visits_handle : e.Visits x p (en :: ens) path q ↔ ∃ rest, path = en :: rest ∧
    e.Visits x (e.handle x p en).1 ((e.handle x p en).2 ++ ens) rest q := by
  rw [visits_cons]
  simp only [visits_append]
  constructor
  · rintro ⟨inner, mid, outer, visits, visits', rfl⟩
    exact ⟨_, rfl, inner, mid, outer, visits, visits', rfl⟩
  · rintro ⟨_, rfl, inner, mid, outer, visits, visits', rfl⟩
    exact ⟨inner, mid, outer, visits, visits', rfl⟩

theorem heads_nil (e : Engine) (x : Execution) (p : Pass) (ens : List Entry) : e.Heads x p ens [] :=
  ⟨0, List.nil_prefix⟩

/-- How a recursion begins: with the entry and what it has made ready, or after that with the
entries beside it. -/
theorem heads_cons : e.Heads x p (en :: ens) path ↔ path = [] ∨ ∃ rest, path = en :: rest ∧
    (e.Heads x (e.handle x p en).1 (e.handle x p en).2 rest ∨ ∃ inner mid outer,
      e.Visits x (e.handle x p en).1 (e.handle x p en).2 inner mid ∧ e.Heads x mid ens outer ∧
        rest = inner ++ outer) := by
  -- A recursion has fuel for what is inside it and what is beside it. Back from the two of them,
  -- the fuel of both is enough for either, since more of it does not change a recursion that has
  -- come to its end.
  constructor
  · rintro ⟨fuel, begun⟩
    cases path with
    | nil => exact .inl rfl
    | cons first rest =>
      cases fuel with
      | zero => exact absurd (List.prefix_nil.1 begun) (List.cons_ne_nil _ _)
      | succ fuel =>
        obtain ⟨rfl, begun⟩ := List.cons_prefix_cons.1 begun
        refine .inr ⟨rest, rfl, ?_⟩
        rcases Tour.prefix_andThen.1 begun with inside | ⟨inner, mid, outer, inside, beside, hpath⟩
        · exact .inl ⟨fuel, inside⟩
        · exact .inr ⟨inner, mid, outer, ⟨fuel, inside⟩, ⟨fuel, beside⟩, hpath⟩
  · rintro (rfl | ⟨rest, rfl,
      ⟨fuel, inside⟩ | ⟨inner, mid, outer, ⟨fuel, inside⟩, ⟨fuel', beside⟩, hpath⟩⟩)
    · exact heads_nil e x p (en :: ens)
    · exact ⟨fuel + 1, List.cons_prefix_cons.2 ⟨rfl, Tour.prefix_andThen.2 (.inl inside)⟩⟩
    · have more := (visitAll_le (Nat.le_max_left fuel fuel') (e.handle x p en).1
        (e.handle x p en).2).same (by rw [inside])
      have further := (visitAll_le (e := e) (x := x) (Nat.le_max_right fuel fuel') mid ens).further
      refine ⟨max fuel fuel' + 1, List.cons_prefix_cons.2 ⟨rfl, Tour.prefix_andThen.2 (.inr ?_)⟩⟩
      exact ⟨inner, mid, outer, more.trans inside, beside.trans further, hpath⟩

/-- Visiting some entries and then others begins as visiting them in one go does. -/
theorem heads_append (heads : e.Heads x p (ens ++ ens') path) : e.Heads x p ens path ∨
    ∃ first mid second, e.Visits x p ens first mid ∧ e.Heads x mid ens' second ∧
      path = first ++ second := by
  induction ens generalizing p path with
  | nil => exact .inr ⟨[], p, path, visits_nil.2 ⟨rfl, rfl⟩, heads, rfl⟩
  | cons en ens ih =>
    rcases heads_cons.1 heads with rfl | ⟨rest, rfl,
      inside | ⟨inner, mid, outer, visits, beside, rfl⟩⟩
    · exact .inl (heads_nil e x p (en :: ens))
    · exact .inl (heads_cons.2 (.inr ⟨rest, rfl, .inl inside⟩))
    · rcases ih beside with among | ⟨first, mid', second, visits', heads', rfl⟩
      · exact .inl (heads_cons.2 (.inr ⟨_, rfl, .inr ⟨inner, mid, outer, visits, among, rfl⟩⟩))
      · refine .inr ⟨en :: (inner ++ first), mid', second, ?_, heads', by simp⟩
        exact visits_cons.2 ⟨inner, mid, first, visits, visits', rfl⟩

theorem Heads.handle (heads : e.Heads x (e.handle x p en).1 ((e.handle x p en).2 ++ ens) path) :
    e.Heads x p (en :: ens) (en :: path) :=
  heads_cons.2 (.inr ⟨path, rfl, heads_append heads⟩)

end Engine

end Conveyor
