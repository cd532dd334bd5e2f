/-
What becomes of a run that is canceled.

The token of a run may be canceled at any moment, by the host or by a node, and the loop looks at it
once in every turn, before it takes an entry. So there are three ways for a cancellation to strike:
it comes before the look, and the loop sees it at once; it comes after the look while a node is in
hand, and the node may make of it what it likes; or it comes after the look in a turn that executes
no node. `Strikes` lists them, and `Trail.overtaken` says that there is no other way. In the last
two ways the turn is brought to its end, and the loop sees the cancellation at its next look, if
there is one.

Whichever way it is, the phase after it is `Over`: no entry is taken and no execution concluded any
more, and the run has the stack that it had then. `Fate` says which status it gets. The exits of the
loop are told apart by what they have set, so the node in hand decides whether a run that it was
canceled in counts as canceled.
-/
import Conveyor.Proofs.Engine.Outcome

set_option autoImplicit false

namespace Conveyor

/-- No entry is taken any more: the run has ended, or it is before a look at the token that sees it
canceled. -/
def Phase.Over : Phase → Prop
  | ready p => p.canceled = true
  | stopped .. => True
  | lingering .. | broken _ => False

namespace Engine

variable {e : Engine} {w : Workflow} {r : Request} {x : Execution} {s : RunState} {φ φ' φ₀ : Phase}
  {p p' q : Pass} {n : Node} {en : Entry} {result : NodeResult} {h : List Entry}
  {ts : List (String × Task)} {run : Run}

/-! ## Nothing is begun any more -/

theorem cancel_cancel (φ : Phase) : φ.cancel.cancel = φ.cancel := by
  cases φ <;> rfl

/-- A run that is canceled takes no entry. -/
theorem next?_of_canceled (canceled : φ.isCanceled = true) : φ.next? = none := by
  cases φ with
  | ready p => rw [Phase.next?, if_pos (show p.canceled = true from canceled)]
  | lingering p n en r => rfl
  | stopped p c => rfl
  | broken m => rfl

theorem over_cancel (past : φ.Over) : φ.cancel.Over := by
  cases φ with
  | ready p => rfl
  | lingering p n en r => exact past.elim
  | stopped p c => trivial
  | broken m => exact past.elim

/-- A step of a run that is over takes nothing and concludes nothing. -/
theorem over_step (past : φ.Over) :
    (e.step x φ).Over ∧ φ.next? = none ∧ e.concludes? x φ = none := by
  cases φ with
  | ready p =>
    have canceled : p.canceled = true := past
    have next : (Phase.ready p).next? = none := next?_of_canceled canceled
    refine ⟨by rw [step, if_pos canceled]; trivial, next, ?_⟩
    simp only [concludes?, hand?, next, Option.bind_eq_bind, Option.bind_none]
  | lingering p n en r => exact past.elim
  | stopped p c => exact ⟨trivial, rfl, rfl⟩
  | broken m => exact past.elim

/-- **Once a run is over, nothing is taken and nothing is executed**, however it goes on. -/
theorem Trail.idle_of_over (past : φ₀.Over) (trail : Trail e x φ₀ h ts φ) :
    φ.Over ∧ h = [] ∧ ts = [] := by
  induction trail with
  | refl => exact ⟨past, rfl, rfl⟩
  | step _ ih =>
    obtain ⟨past, rfl, rfl⟩ := ih
    obtain ⟨past', next, concludes⟩ := over_step (e := e) (x := x) past
    rw [next, concludes]
    exact ⟨past', rfl, rfl⟩
  | cancel _ ih => exact ⟨over_cancel ih.1, ih.2⟩

/-- A run that is over ends as it is, and as canceled unless it had already come to an end. -/
theorem ending_of_over (hk : e.Watched) (past : φ.Over) (hp : φ.pass? = some p) : ∃ c,
    (φ = .stopped p c ∨ φ = .ready p ∧ c = true) ∧
      e.ending x φ = .run (e.finish x p c).1 (e.finish x p c).2 := by
  cases φ with
  | ready q =>
    obtain rfl := Option.some.inj hp
    have stops : e.step x (.ready q) = .stopped q true := by
      rw [step, if_pos (show q.canceled = true from past)]
    refine ⟨true, .inr ⟨rfl, rfl⟩, ?_⟩
    rw [ending, ← advance_step hk, stops]
    rfl
  | lingering q n en r => exact past.elim
  | stopped q c =>
    obtain rfl := Option.some.inj hp
    exact ⟨c, .inl rfl, rfl⟩
  | broken m => exact past.elim

/-! ## How a cancellation strikes -/

/-- A run in the turn of `φ` is canceled, and that takes it to `φ'`, where the turn is over. -/
inductive Strikes (e : Engine) (x : Execution) : Phase → Phase → Prop
  /-- The loop has not yet looked at the token in this turn. -/
  | unseen {p : Pass} : Strikes e x (.ready p) (.ready { p with canceled := true })
  /-- A node is in hand. It may come to any result. -/
  | within {φ : Phase} {q : Pass} {n : Node} {en : Entry} (result : NodeResult)
      (hand : e.hand? x φ = some (q, n, en)) :
      Strikes e x φ (e.conclude x { q with canceled := true } n en result)
  /-- The loop has looked, and has no node to execute in this turn. -/
  | beside {p : Pass} (going : p.canceled = false) (idle : e.hand? x (.ready p) = none) :
      Strikes e x (.ready p) (e.step x (.ready p)).cancel

/-- A node that lingers is in hand when the cancellation comes that it waits for. -/
theorem strikes_lingering (p : Pass) (n : Node) (en : Entry) (result : NodeResult) :
    Strikes e x (.lingering p n en result) (e.step x (Phase.lingering p n en result).cancel) :=
  .within result rfl

/-- Where a conclusion leads to, with what has become of the error and the moment to wait for. -/
inductive Concluded (e : Engine) (x : Execution) (q : Pass) (n : Node) (en : Entry)
    (result : NodeResult) :
    Phase → Prop
  | failed {p' : Pass} (task : (e.comesTo q n en result).status = .error)
  (error : p'.state.error.isSome = true)
      (waitTill : p'.state.waitTill = q.state.waitTill) :
        Concluded e x q n en result (.stopped p' false)
  | paused {p' : Pass} {till : Time.Instant}
      (asks : (result.settle n.onError (e.registry.outputs n.type)).till = some till)
      (later : e.now.lt till = true) (waitTill : p'.state.waitTill = some till) :
      Concluded e x q n en result (.stopped p' false)
  | goes {p' : Pass} (canceled : p'.canceled = q.canceled) (error : p'.state.error = q.state.error)
      (waitTill : p'.state.waitTill = q.state.waitTill) : Concluded e x q n en result (.ready p')

theorem concluded_conclude (hk : e.Watched) (x : Execution) (q : Pass) (n : Node) (en : Entry)
    (result : NodeResult) : Concluded e x q n en result (e.conclude x q n en result) := by
  set t := e.comesTo q n en result
  have trims : (q.state.recorded n.name t).Trims (e.record q n t).state :=
    hk.callHooks _ _ (fun k h s => h.nodeEnds n.name t s) _
  obtain ⟨stack, _, state⟩ := trims
  have error : (e.record q n t).state.error = q.state.error := by rw [state]; rfl
  have waitTill : (e.record q n t).state.waitTill = q.state.waitTill := by rw [state]; rfl
  have conclusion := e.conclusion x q n en result
  generalize e.conclude x q n en result = φ at conclusion
  cases conclusion with
  | failed message status => exact .failed status rfl waitTill
  | paused status asks later pass => exact .paused asks later rfl
  | goes status => exact .goes rfl error waitTill

/-- Where a node is in hand, there is a pass. -/
theorem pass_of_hand (hand : e.hand? x φ = some (q, n, en)) : ∃ p, φ.pass? = some p := by
  obtain ⟨p, rest, left, rfl, -⟩ | ⟨r, rfl⟩ := hand?_cases hand
  · exact ⟨p, rfl⟩
  · exact ⟨q, rfl⟩

/-- The node in hand is executed in a pass that has the error and the moment to wait for of the
phase. -/
theorem Watched.hand_state (hk : e.Watched) (hand : e.hand? x φ = some (q, n, en))
    (hp : φ.pass? = some p) :
    φ.Going ∧ q.state.error = p.state.error ∧ q.state.waitTill = p.state.waitTill := by
  obtain ⟨p', rest, left, rfl, -, -, -, -, -, rfl⟩ | ⟨r, rfl⟩ := hand?_cases hand
  · obtain rfl := Option.some.inj hp
    obtain ⟨stack, _, state⟩ := hk.callHooks (.nodeStarts n.name) (fun h => h.nodeStarts n.name)
      (fun k h s => h.nodeStarts n.name s) (p'.state.withStack p'.state.agenda.stack.tail)
    have entered : (e.enter p' n).state
        = (p'.state.withStack p'.state.agenda.stack.tail).withStack stack := state
    rw [entered]
    exact ⟨trivial, rfl, rfl⟩
  · obtain rfl := Option.some.inj hp
    exact ⟨trivial, rfl, rfl⟩

/-- A turn without a node in hand finds nothing on the stack, one entry too many, an entry whose
node is not there, or one whose node is disabled. -/
inductive Idles (e : Engine) (x : Execution) (p : Pass) : Phase → Prop
  | empty (stack : p.state.agenda.stack = []) : Idles e x p (.stopped p false)
  | dropped {p' : Pass} (exhausted : (Phase.ready p).exhausted = true)
    (error : p'.state.error.isSome = true)
      (waitTill : p'.state.waitTill = p.state.waitTill) (canceled : p'.canceled = p.canceled) :
      Idles e x p (.stopped p' false)
  | unknown {p' : Pass} {en : Entry} (next : (Phase.ready p).next? = some en)
      (missing : x.graph.node? en.node = none) (error : p'.state.error.isSome = true)
      (waitTill : p'.state.waitTill = p.state.waitTill) (canceled : p'.canceled = p.canceled) :
      Idles e x p (.stopped p' false)
  | bypassed {p' : Pass} (error : p'.state.error = p.state.error)
      (waitTill : p'.state.waitTill = p.state.waitTill) (canceled : p'.canceled = p.canceled) :
      Idles e x p (.ready p')

theorem idles_step (going : p.canceled = false) (idle : e.hand? x (.ready p) = none) :
    Idles e x p (e.step x (.ready p)) := by
  have unhanded := unhanded_step idle
  generalize e.step x (.ready p) = φ' at unhanded
  cases unhanded with
  | canceled canceled => exact absurd (going.symm.trans canceled) Bool.false_ne_true
  | empty _ stack => exact .empty stack
  | refused next spent =>
    have exhausted : (Phase.ready p).exhausted = true := by
      rw [Phase.exhausted, next, spent]
      rfl
    exact .dropped exhausted rfl rfl rfl
  | unknown next missing => exact .unknown next missing rfl rfl rfl
  | bypassed => exact .bypassed rfl rfl rfl

/-- The node in hand is executed in a pass that is canceled if the phase is. -/
theorem canceled_of_hand (hand : e.hand? x φ = some (q, n, en)) : q.canceled = φ.isCanceled := by
  obtain ⟨p, rest, left, rfl, -, -, -, -, -, rfl⟩ | ⟨r, rfl⟩ := hand?_cases hand
  · rfl
  · rfl

/-- A turn that executes nothing cancels nothing. -/
theorem Idles.isCanceled (idles : Idles e x p φ') : φ'.isCanceled = p.canceled := by
  cases idles with
  | empty => rfl
  | dropped _ _ _ canceled => exact canceled
  | unknown _ _ _ _ canceled => exact canceled
  | bypassed _ _ canceled => exact canceled

/-- **A step that cancels the run strikes it**: only the node in hand can do so. -/
theorem strikes_of_step (calm : φ.isCanceled = false) (canceled : (e.step x φ).isCanceled = true) :
    Strikes e x φ (e.step x φ) := by
  cases hand : e.hand? x φ with
  -- With no node in hand, a step either ends the run or goes on with it, and its token stays as it
  -- is.
  | none =>
    have still : (e.step x φ).isCanceled = false := by
      cases φ with
      | ready p => exact (idles_step calm hand).isCanceled.trans calm
      | lingering p n en r => simp only [hand?, reduceCtorEq] at hand
      | stopped p c => exact calm
      | broken m => rfl
    exact absurd (canceled.symm.trans still) Bool.noConfusion
  | some found =>
    obtain ⟨q, n, en⟩ := found
    have steps := step_hand hand
    -- A node that returns leaves the token alone, so the token was canceled within the execution.
    have before : q.canceled = false := (canceled_of_hand hand).trans calm
    generalize e.goesOn x q n en φ = a at steps
    rw [steps] at canceled ⊢
    cases a with
    | returns r =>
      exact absurd ((isCanceled_conclude e x q n en r).symm.trans canceled) (by simp [before])
    | cancelsRun r => exact .within r hand
    | lingers r => exact absurd (before.symm.trans canceled) Bool.noConfusion
    | breaks message => exact absurd canceled Bool.noConfusion

/-- A pass was canceled on its way to a phase: before that it was not, and the cancellation has
struck it. The entries that it has taken are those from before, and at most the one of the turn it
was struck in. -/
inductive Overtaken (e : Engine) (x : Execution) (φ₀ : Phase) (h : List Entry) : Phase → Prop
  | struck {h₁ h₂ : List Entry} {ts₁ ts₂ : List (String × Task)} {φ₁ φ₂ φ : Phase}
      (before : Trail e x φ₀ h₁ ts₁ φ₁) (calm : φ₁.isCanceled = false) (strikes : Strikes e x φ₁ φ₂)
      (after : Trail e x φ₂ h₂ ts₂ φ) (taken : h = h₁ ∨ h = h₁ ++ φ₁.next?.toList) :
        Overtaken e x φ₀ h φ
  /-- A node lingers, and has still to take notice of it. -/
  | lingering {ts : List (String × Task)} {p : Pass} {n : Node} {en : Entry} {result : NodeResult}
      (before : Trail e x φ₀ h ts (.lingering p n en result)) (calm : p.canceled = false) :
      Overtaken e x φ₀ h (Phase.lingering p n en result).cancel

/-- **There is no other way to be canceled**: whenever the token of a pass is canceled on the way,
one of these strikes it. -/
theorem Trail.overtaken (trail : Trail e x φ₀ h ts φ) (calm : φ₀.isCanceled = false)
    (canceled : φ.isCanceled = true) : Overtaken e x φ₀ h φ := by
  -- The induction is on the trail. If the token was canceled before its last step, it was struck
  -- before, or the node that lingered takes notice with this step; otherwise it is the last step
  -- that cancels it.
  induction trail with
  | refl => exact absurd (canceled.symm.trans calm) Bool.noConfusion
  | @step h ts φ trail ih =>
    cases before : φ.isCanceled with
    | true =>
      rw [next?_of_canceled before, Option.toList_none, List.append_nil]
      cases ih before with
      | struck start calm strikes after taken => exact .struck start calm strikes after.step taken
      | lingering start calm =>
        exact .struck start calm (strikes_lingering _ _ _ _) .refl (.inl rfl)
    | false => exact .struck trail before (strikes_of_step before canceled) .refl (.inr rfl)
  | @cancel h ts φ trail ih =>
    cases before : φ.isCanceled with
    | true =>
      cases ih before with
      | struck start calm strikes after taken => exact .struck start calm strikes after.cancel taken
      | lingering start calm =>
        rw [cancel_cancel]
        exact .lingering start calm
    | false =>
      cases φ with
      | ready p => exact .struck trail before .unseen .refl (.inl rfl)
      | lingering p n en r => exact .lingering trail before
      | stopped p c => exact absurd (before.symm.trans canceled) Bool.noConfusion
      | broken m => exact absurd canceled Bool.noConfusion

/-! ## What the run is then -/

/-- Which status a run gets that is canceled in the turn of `φ`, which then goes to `φ'`. The pass
has begun in the state `s`, at the request `r`. -/
inductive Fate (e : Engine) (w : Workflow) (r : Request) (x : Execution) (s : RunState)
    (φ φ' : Phase) (run : Run) : Prop
  | canceled (status : run.status = .canceled)
  /-- The node in hand has failed. -/
  | failed {q : Pass} {n : Node} {en : Entry} {result : NodeResult}
    (hand : e.hand? x φ = some (q, n, en))
      (concludes : φ' = e.conclude x { q with canceled := true } n en result)
      (task : (e.comesTo q n en result).status = .error) (status : run.status = .failed)
  /-- The node in hand pauses the run. -/
  | paused {q : Pass} {n : Node} {en : Entry} {result : NodeResult} {till : Time.Instant}
      (hand : e.hand? x φ = some (q, n, en))
      (concludes : φ' = e.conclude x { q with canceled := true } n en result)
      (asks : (result.settle n.onError (e.registry.outputs n.type)).till = some till)
      (later : e.now.lt till = true) (status : run.status = .waiting)
  /-- The entry that was taken is one too many. The loop had looked at the token before it took the
  entry. -/
  | dropped {p' : Pass} (exhausted : φ.exhausted = true) (looked : φ' = .stopped p' false)
      (status : run.status = .failed)
  /-- It was too late: the loop had looked at the token for the last time, with nothing left to do,
  and was at its end when the cancellation came. -/
  | late {p : Pass} (last : φ = .ready p) (going : p.canceled = false)
    (done : p.state.agenda.stack = [])
      (looked : φ' = .stopped p false) (status : run.status = .success)
  /-- The node of the entry is not there. Engines make no such entries. -/
  | unknown {p' : Pass} {en : Entry} (next : φ.next? = some en)
    (missing : x.graph.node? en.node = none)
      (looked : φ' = .stopped p' false) (foreign : ¬ Genuine w r) (status : run.status = .failed)
  /-- The run had failed before it was resumed. Engines do not pause such runs. -/
  | before (error : s.error.isSome = true) (foreign : ¬ Genuine w r) (status : run.status = .failed)

/-- What is left to do of a run that is canceled in the turn of `φ`, which then goes to `φ'`. -/
structure LeftOver (e : Engine) (x : Execution) (φ φ' : Phase) (run : Run) : Prop where
  /-- Nothing is lost but what hooks drop. -/
  stack : ∀ p', φ'.pass? = some p' → run.state.agenda.stack.Sublist p'.state.agenda.stack
  whole : e.Silent → ∀ p', φ'.pass? = some p' → run.state.agenda.stack = p'.state.agenda.stack
  /-- What the node in hand has made ready lies on top of what was below its entry. -/
  pushed : e.Silent → ∀ q n en result, e.hand? x φ = some (q, n, en) →
    φ' = e.conclude x { q with canceled := true } n en result →
      (e.comesTo q n en result).status = .success →
    run.state.agenda.stack = x.graph.pushes q.state.agenda n.name (e.comesTo q n en result).output
      ++ q.state.agenda.stack

/-- A success leaves what it makes ready on top of the stack. -/
theorem Silent.conclude_stack (silent : e.Silent)
    (status : (e.comesTo q n en result).status = .success) :
    ∃ p', (e.conclude x q n en result).pass? = some p' ∧ p'.state.agenda.stack
      = x.graph.pushes q.state.agenda n.name (e.comesTo q n en result).output
        ++ q.state.agenda.stack := by
  set t := e.comesTo q n en result
  have agenda : (e.record q n t).state.agenda = q.state.agenda := by rw [silent.record_state]; rfl
  have conclusion := e.conclusion x q n en result
  generalize e.conclude x q n en result = φ at conclusion
  cases conclusion with
  | failed message failed => exact absurd (failed.symm.trans status) TaskStatus.noConfusion
  | paused status asks later pass => exact ⟨_, rfl, by rw [pass, ← agenda]; rfl⟩
  | goes status => exact ⟨_, rfl, by rw [← agenda]; rfl⟩

/-- Where a pass stands that began in the state `s`, at the request `r`: it has the error that it
began with, and if engines have made what it was asked for, it has none and the entries are for
nodes that are there. -/
structure Stands (w : Workflow) (r : Request) (x : Execution) (s : RunState) (φ : Phase) :
    Prop where
  calm : ∀ p, φ.pass? = some p → φ.Going → p.state.error = s.error ∧ p.state.waitTill = none
  fine : Genuine w r → s.error = none
  known : Genuine w r → ∀ en, φ.next? = some en → x.graph.node? en.node ≠ none

/-- A pass stands so at every moment. -/
theorem stands_of_trail (hk : e.Watched) (prepared : e.prepare w r = .ok (x, s)) {canceled : Bool}
    (trail : Trail e x (e.begin x s canceled) h ts φ) : Stands w r x s φ := by
  obtain ⟨graph, waitTill⟩ := prepare_graph prepared
  obtain rfl := workflow_of_graph graph
  refine ⟨fun p hp going => ?_, fun genuine => (genuine.ready prepared).fine,
    fun genuine en next missing => ?_⟩
  · obtain ⟨p₀, hp₀, ⟨stack, _, state⟩, _⟩ := hk.begin x s canceled
    have begun : (e.begin x s canceled).pass? = some p₀ := by rw [hp₀]; rfl
    obtain ⟨error, awake⟩ := trail.leads.calm hk begun hp going
    rw [state] at error awake
    exact ⟨error, awake.trans waitTill⟩
  · obtain ⟨p, rfl⟩ := Phase.ready_of_next? next
    have sane := Leads.sane hk ((genuine.ready prepared).begin hk canceled) trail.leads rfl
    exact sane.node?_ne_none rfl next missing

theorem Stands.foreign (stands : Stands w r x s φ) {err : RunError} (before : s.error = some err) :
    ¬ Genuine w r := by
  intro genuine
  rw [stands.fine genuine] at before
  simp only [reduceCtorEq] at before

/-- A run that is struck is over, and its status is that of its fate. -/
structure Struck (e : Engine) (w : Workflow) (r : Request) (x : Execution) (s : RunState)
    (φ φ' : Phase) (p' : Pass) : Prop where
  past : φ'.Over
  pass : φ'.pass? = some p'
  fate : ∀ c run, (φ' = .stopped p' c ∨ φ' = .ready p' ∧ c = true) →
    run.status = RunStatus.ofOutcome p'.state.error.isSome false c p'.state.waitTill.isSome →
    Fate e w r x s φ φ' run

/-- A run that goes on until it sees the cancellation is canceled, unless it had failed before. -/
theorem struck_ready (stands : Stands w r x s φ) (canceled : p'.canceled = true)
    (error : p'.state.error = s.error) (waitTill : p'.state.waitTill = none) :
    Struck e w r x s φ (.ready p') p' := by
  refine ⟨canceled, rfl, fun c run ends status => ?_⟩
  obtain rfl : c = true := by
    rcases ends with stopped | ⟨_, rfl⟩
    · simp only [reduceCtorEq] at stopped
    · rfl
  rw [error, waitTill] at status
  cases before : s.error with
  | none =>
    rw [before] at status
    exact .canceled status
  | some err =>
    rw [before] at status
    exact .before (by rw [before]; rfl) (stands.foreign before) status

/-- The fate of a run that stops is told by what it stops with. -/
theorem struck_stopped {c : Bool} (fate : ∀ run : Run,
      run.status = RunStatus.ofOutcome p'.state.error.isSome false c p'.state.waitTill.isSome →
      Fate e w r x s φ (.stopped p' c) run) : Struck e w r x s φ (.stopped p' c) p' := by
  refine ⟨trivial, rfl, fun c' run ends status => ?_⟩
  rcases ends with stopped | ⟨goes, _⟩
  · obtain ⟨-, rfl⟩ := Phase.stopped.inj stopped
    exact fate run status
  · simp only [reduceCtorEq] at goes

/-- The node in hand brings the turn to its end: it fails, it pauses the run, or the loop goes on to
its next look. -/
theorem struck_within (hk : e.Watched) (stands : Stands w r x s φ)
    (hand : e.hand? x φ = some (q, n, en)) (hp : φ.pass? = some p) (result : NodeResult) :
    ∃ p', Struck e w r x s φ (e.conclude x { q with canceled := true } n en result) p' := by
  obtain ⟨going, sameError, sameTill⟩ := hk.hand_state hand hp
  obtain ⟨error, awake⟩ := stands.calm p hp going
  have concluded := concluded_conclude hk x { q with canceled := true } n en result
  generalize concludes : e.conclude x { q with canceled := true } n en result = φ' at concluded
  cases concluded with
  | @failed p' task failed waitTill =>
    refine ⟨p', struck_stopped fun run status => .failed hand concludes.symm task ?_⟩
    rw [status, failed, waitTill, sameTill, awake]
    rfl
  | @paused p' till asks later waitTill =>
    refine ⟨p', struck_stopped fun run status => .paused hand concludes.symm asks later ?_⟩
    rw [status, waitTill]
    rfl
  | @goes p' canceled error' waitTill =>
    exact ⟨p', struck_ready stands canceled ((error'.trans sameError).trans error)
      ((waitTill.trans sameTill).trans awake)⟩

/-- A turn that executes nothing ends the run, or goes on to the next look. -/
theorem struck_beside (stands : Stands w r x s (.ready p)) (going : p.canceled = false)
    (idle : e.hand? x (.ready p) = none) :
    ∃ p', Struck e w r x s (.ready p) (e.step x (.ready p)).cancel p' := by
  -- Such a turn finds the stack empty, the limit exhausted, a node that is unknown or one that is
  -- disabled.
  obtain ⟨error, awake⟩ := stands.calm p rfl trivial
  have idles := idles_step going idle
  generalize e.step x (.ready p) = φ' at idles
  cases idles with
  | empty done =>
    refine ⟨p, struck_stopped fun run status => ?_⟩
    rw [error, awake] at status
    cases before : s.error with
    | none => exact .late rfl going done rfl (by rw [status, before]; rfl)
    | some err =>
      exact .before (by rw [before]; rfl) (stands.foreign before) (by rw [status, before]; rfl)
  | @dropped p' exhausted failed waitTill =>
    refine ⟨p', struck_stopped fun run status => .dropped exhausted rfl ?_⟩
    rw [status, failed, waitTill, awake]
    rfl
  | @unknown p' en next missing failed waitTill =>
    refine ⟨p', struck_stopped fun run status =>
      .unknown next missing rfl (fun genuine => stands.known genuine en next missing) ?_⟩
    rw [status, failed, waitTill, awake]
    rfl
  | @bypassed p' error' waitTill =>
    exact ⟨{ p' with canceled := true },
      struck_ready stands rfl (error'.trans error) (waitTill.trans awake)⟩

/-- **A run that is canceled begins nothing any more, and loses nothing of what was still to be
done.** It counts as canceled, unless the node in hand has failed, has paused the run or was one too
many. It is a success only where the loop had looked at the token for the last time before it was
canceled. -/
theorem cancellation_safe (hk : e.Watched) (prepared : e.prepare w r = .ok (x, s)) {canceled : Bool}
    (trail : Trail e x (e.begin x s canceled) h ts φ) (strikes : Strikes e x φ φ') :
    (∀ {h' ts' φ''}, Trail e x φ' h' ts' φ'' → h' = [] ∧ ts' = []) ∧
      ∃ run log, e.ending x φ' = .run run log ∧ Fate e w r x s φ φ' run ∧
        LeftOver e x φ φ' run := by
  -- The pass that is struck is at hand in each of the three ways to strike.
  have stands := stands_of_trail hk prepared trail
  have struck : ∃ p', Struck e w r x s φ φ' p' := by
    cases strikes with
    | @unseen p =>
      obtain ⟨error, waitTill⟩ := stands.calm p rfl trivial
      exact ⟨_, struck_ready stands rfl error waitTill⟩
    | @within _ q n en result hand =>
      obtain ⟨p, hp⟩ := pass_of_hand hand
      exact struck_within hk stands hand hp result
    | beside going idle => exact struck_beside stands going idle
  obtain ⟨p', struck⟩ := struck
  obtain ⟨c, ends, ending⟩ := ending_of_over hk struck.past struck.pass
  obtain ⟨stack, sub, state⟩ := hk.finish x p' c
  -- After that nothing is begun; what the run says at its end is told by the pass, and the stack is
  -- what was left.
  refine ⟨fun trail => (trail.idle_of_over struck.past).2, _, _, ending,
    struck.fate c _ ends (hk.finish_status x p' c), ?_, ?_, ?_⟩
  · intro q hq
    obtain rfl := Option.some.inj (struck.pass.symm.trans hq)
    rw [state]
    exact sub
  · intro silent q hq
    obtain rfl := Option.some.inj (struck.pass.symm.trans hq)
    rw [(silent.finish x p' c).state]
    rfl
  · intro silent q n en result hand concludes success
    obtain ⟨q', hq', pushed⟩ :=
      silent.conclude_stack (x := x) (q := { q with canceled := true }) success
    rw [← concludes, struck.pass] at hq'
    obtain rfl := Option.some.inj hq'
    rw [(silent.finish x p' c).state]
    exact pushed

end Engine

/-! ## The detour, canceled at its beginning -/

namespace Detour

/-- Cancels the run and hands its items on. -/
def quit : NodeType where
  spec := { name := "quit", displayName := "Quit" }
  execute i := .cancelsRun (.output [i.mainItems])

/-- The pass in which Start has canceled the run. -/
def left : Pass := ((engine quit).step execution (first quit)).pass?.get rfl

theorem quits : (engine quit).step execution (first quit) = .ready left := rfl

end Detour

/-- On the detour Start cancels the run. What Start has made ready is left on the stack, and none of
it is taken. -/
theorem detour_canceled : ∃ run log,
    (Detour.engine Detour.quit).ending Detour.execution (.ready Detour.left) = .run run log ∧
    run.status = .canceled ∧ run.state.agenda.stack = Detour.left.state.agenda.stack ∧
    Detour.left.state.agenda.stack.map Entry.node = ["A"] ∧
    ∀ h ts φ, (Detour.engine Detour.quit).Trail Detour.execution (.ready Detour.left) h ts φ →
      h = [] ∧ ts = [] := by
  have strikes := Engine.strikes_of_step (e := Detour.engine Detour.quit) (x := Detour.execution)
    (φ := Detour.first Detour.quit) rfl rfl
  rw [Detour.quits] at strikes
  obtain ⟨still, run, log, ends, -, kept⟩ :=
    Engine.cancellation_safe (Detour.watched _) (Detour.prepared _) .refl strikes
  have status : run.status = .canceled := by
    obtain ⟨rfl, -⟩ := Engine.Ending.run.inj ends
    rfl
  exact ⟨run, log, ends, status, kept.whole Detour.silent _ rfl, by decide, fun _ _ _ => still⟩

end Conveyor
