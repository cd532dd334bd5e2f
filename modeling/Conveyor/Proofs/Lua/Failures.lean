/-
Where a failed program was.

The machine tells where it is by lines: each call that waits remembers the line that it was made on,
and what is done now is on a line of its own. All of these are lines of the program that the
function in question was read from. What one step has to keep is that everything that waits is of
the function that is innermost below it (`Stack`), and that the functions in the store have lines of
their chunk. So when the program fails, every level of the trace is at a line of the chunk that is
named there, and so is the position in front of the message (`Function.run_placed`).
-/
import Conveyor.Lua.Step
import Conveyor.Proofs.Lua.Functions

set_option autoImplicit false

namespace Conveyor.Lua

section Placed

variable (allowed : String → Nat → Prop) (chunk : String)

/-! ## What waits -/

/-- Values are used on lines that are allowed in a chunk. -/
def Use.Placed : Use → Prop
  | .call line _ _ | .index _ line | .binary _ _ _ line | .unary _ _ line => allowed chunk line
  | .both b _ | .either b _ => b.Placed allowed chunk
  | .table fields => ∀ f ∈ fields, f.Placed allowed chunk
  | .self _ _ args nameLine line _ _ =>
    (∀ e ∈ args, e.Placed allowed chunk) ∧ allowed chunk nameLine ∧ allowed chunk line
  | .ret | .endUnless => True
  | .discard rest whole _ => (∀ s ∈ rest, s.Placed allowed chunk) ∧
    ∀ s ∈ whole, s.Placed allowed chunk
  | .locals _ _ line rest whole _ | .assign _ line rest whole _ =>
    allowed chunk line ∧ (∀ s ∈ rest, s.Placed allowed chunk) ∧ ∀ s ∈ whole, s.Placed allowed chunk
  | .branch body arms otherwise _ =>
    (∀ s ∈ body, s.Placed allowed chunk) ∧
      (∀ arm ∈ arms, arm.1.Placed allowed chunk ∧ ∀ s ∈ arm.2, s.Placed allowed chunk) ∧
      ∀ s ∈ otherwise, s.Placed allowed chunk
  | .loopWhile condition body _ => condition.Placed allowed chunk ∧
    ∀ s ∈ body, s.Placed allowed chunk
  | .loopNumbers body line _ | .loopValues _ body line _ =>
    allowed chunk line ∧ ∀ s ∈ body, s.Placed allowed chunk

/-- What waits is of a chunk; a function outside the program goes on safely. -/
def Pending.Placed : Pending → Prop
  | .values todo _ _ use => (∀ e ∈ todo, e.Placed allowed chunk) ∧ use.Placed allowed chunk
  | .single | .returning => True
  | .method _ _ args line _ _ => (∀ e ∈ args, e.Placed allowed chunk) ∧ allowed chunk line
  | .sequence rest whole _ => (∀ s ∈ rest, s.Placed allowed chunk) ∧
    ∀ s ∈ whole, s.Placed allowed chunk
  | .whileBody condition body _ => condition.Placed allowed chunk ∧
    ∀ s ∈ body, s.Placed allowed chunk
  | .untilBody body _ | .ints _ _ _ body _ | .floats _ _ _ body _ =>
    ∀ s ∈ body, s.Placed allowed chunk
  | .produced _ _ _ body line _ | .eachBody _ _ _ _ body line _ =>
    allowed chunk line ∧ ∀ s ∈ body, s.Placed allowed chunk
  | .activation _ place site _ => allowed chunk site.line ∧
    (place.line = 0 ∨ allowed place.chunk place.line)
  | .native _ site after =>
    allowed chunk site.line ∧ ∀ (h : Heap) (vs : List Value), h.Placed allowed →
      (after h vs).Safe allowed

/-- The chunk of the function that has not ended and is innermost; none if that function is not of
the program. -/
def here : List Pending → String
  | [] => ""
  | .activation _ place _ _ :: _ => place.chunk
  | .native .. :: _ => ""
  | _ :: rest => here rest

/-- Everything that waits is of the function below it. -/
def Stack : List Pending → Prop
  | [] => True
  | p :: rest => p.Placed allowed (here rest) ∧ Stack rest

/-! ## Levels and failures -/

/-- A level is at a line that is allowed in its chunk. -/
def Level.Placed : Level → Prop
  | .program _ place _ _ line => allowed place.chunk line ∧
    (place.line = 0 ∨ allowed place.chunk place.line)
  | .native .. => True

/-- A failure of a program with a message, at lines that are allowed: the trace shows levels at such
lines, and the position in front of the message, if there is one, is that of a level. -/
inductive Failure.Placed (message : String) : Failure → Prop where
  /-- The program fails where it is. -/
  | here {h : Heap} {ls : List Level} (all : ∀ l ∈ ls, l.Placed allowed) :
    Failure.Placed message
      ⟨(ls.head?.map Level.position).getD "" ++ message, traceText h (handlerLevel :: ls), false⟩
  /-- A function outside the program fails, and blames a level of the program. -/
  | caller {h : Heap} {ls : List Level} {name : Option String} {site : Site} (level : Nat)
    (all : ∀ l ∈ ls, l.Placed allowed) :
    Failure.Placed message
      ⟨(ls[level]?.map Level.position).getD "" ++ message,
        traceText h (handlerLevel :: .native name site :: ls), false⟩
  /-- A function outside the program fails, and blames nobody. -/
  | nobody {h : Heap} {ls : List Level} {name : Option String} {site : Site} (host : Bool)
    (all : ∀ l ∈ ls, l.Placed allowed) :
    Failure.Placed message ⟨message, traceText h (handlerLevel :: .native name site :: ls), host⟩

/-! ## States -/

/-- What is done now is of the function that is innermost. -/
def Control.Placed : Control → Prop
  | .eval e _ => e.Placed allowed chunk
  | .exec rest whole _ => (∀ s ∈ rest, s.Placed allowed chunk) ∧ ∀ s ∈ whole, s.Placed allowed chunk
  | .deliver _ | .finished _ => True
  | .failed f => ∃ message, f.Placed allowed message

/-- A state of the machine in which every line is one of the program. -/
structure State.Placed (s : State) : Prop where
  heap : s.heap.Placed allowed
  stack : Stack allowed s.pending
  control : s.control.Placed allowed (here s.pending)

end Placed

variable {allowed : String → Nat → Prop} {h : Heap} {pending : List Pending} {depth inner : Nat}

/-! ## Failing -/

theorem levels_placed {line : Nat} (stack : Stack allowed pending)
    (now : allowed (here pending) line) :
    ∀ l ∈ levels line pending, l.Placed allowed := by
  fun_induction levels line pending with
  | case1 => nofun
  | case2 line callee place site tail rest ih =>
    obtain ⟨⟨called, begins⟩, stack⟩ := stack
    exact List.forall_mem_cons.2 ⟨⟨now, begins⟩, ih stack called⟩
  | case3 line name site after rest ih =>
    obtain ⟨⟨called, -⟩, stack⟩ := stack
    exact List.forall_mem_cons.2 ⟨trivial, ih stack called⟩
  | case4 line p rest notActivation notNative ih =>
    refine ih stack.2 ?_
    rwa [here.eq_4 p rest notActivation notNative] at now

theorem failAt_placed {line : Nat} (stack : Stack allowed pending)
    (now : allowed (here pending) line) (message : String) :
    (failAt h pending line message).Placed allowed (here pending) :=
  ⟨message, .here (levels_placed stack now)⟩

theorem failNative_placed {site : Site} (stack : Stack allowed pending)
    (now : allowed (here pending) site.line) (name : Option String) (fault : Fault) :
    (failNative h pending name site fault).Placed allowed (here pending) := by
  have all := levels_placed stack now
  unfold failNative
  simp only
  split
  · split
    · simp only [String.append_assoc]
      exact ⟨_, .caller _ all⟩
    · simp only [String.append_assoc]
      exact ⟨_, .caller _ all⟩
  · exact ⟨_, .caller _ all⟩
  · exact ⟨_, .nobody _ all⟩
  · split
    · split
      · exact ⟨_, .caller _ all⟩
      · rw [String.empty_append]
        exact ⟨_, .nobody _ all⟩
    · exact ⟨_, .nobody _ all⟩
  · exact ⟨_, .nobody _ all⟩

/-! ## Calls -/

theorem leaveActivation_placed (stack : Stack allowed pending) (nowhere : allowed "" 0) :
    Stack allowed (leaveActivation pending).2 ∧
      allowed (here (leaveActivation pending).2) (leaveActivation pending).1.line := by
  fun_induction leaveActivation pending with
  | case1 => exact ⟨trivial, nowhere⟩
  | case2 callee place site tail rest => exact ⟨stack.2, stack.1.1⟩
  | case3 p rest other ih => exact ih stack.2

/-- What a call with arguments means is safe, and a function of the program is one of the
store's. -/
def Target.Placed (allowed : String → Nat → Prop) : Target → Prop
  | .closure f _ => ∃ chunk, f.Placed allowed chunk
  | .plan _ run => ∀ h : Heap, h.Placed allowed → (run h).Safe allowed
  | .notCallable => True

theorem target_placed (host : Host) (placed : h.Placed allowed) (f : Value) (args : List Value) :
    (target host h f args).Placed allowed := by
  unfold target
  split
  · split
    · rename_i found
      exact placed _ _ (Array.mem_of_getElem? found)
    · exact fun h placed => Builtin.safe_plan placed _ _
    · exact fun h placed => safe_callHost placed _ _ _
    · exact fun h placed => Library.safe_nextMatch placed _ _ _ _ _
    · trivial
  · trivial

section Calls

variable (host : Host) (nowhere : allowed "" 0)

/-- A function of the program begins. -/
theorem begin_placed {params : Nat} {variadic : Bool} {body : List Statement} {place : Place}
    {chunk : String} (placed : (Function.mk params variadic body place).Placed allowed chunk)
    (heap : h.Placed allowed) (stack : Stack allowed pending) {site : Site}
    (now : allowed (here pending) site.line) (callee : Nat) (tail : Bool) (scope : Scope)
    (depth inner : Nat) :
    State.Placed allowed ⟨h, .exec body body scope, .activation callee place site tail :: pending,
      depth, inner⟩ := by
  cases placed with
  | mk all begins => exact ⟨heap, ⟨⟨now, begins⟩, stack⟩, all, all⟩

include nowhere in
/-- A call, and what a function outside the program does next. The fuel covers every row of
functions outside the program that call each other directly: it does not run out where no line is
known. -/
theorem calls_placed (fuel : Nat) :
    (∀ {h : Heap} {pending : List Pending} (depth : Nat) {inner : Nat} (f : Value)
      (args : List Value) {site : Site} (tail : Bool),
      2 * (maxInner - inner) + 1 < fuel → h.Placed allowed → Stack allowed pending →
      allowed (here pending) site.line →
        (call host fuel h pending depth inner f args site tail).Placed allowed) ∧
    ∀ {pending : List Pending} (depth : Nat) {inner : Nat} (name : Option String) {site : Site}
      {plan : Plan},
      2 * (maxInner - inner) < fuel → plan.Safe allowed → Stack allowed pending →
      allowed (here pending) site.line →
        (perform host fuel pending depth inner name site plan).Placed allowed := by
  -- The two halves call each other. From a call to the plan of its function, and from there to the
  -- next call, the fuel goes down with the room that is left for direct calls.
  induction fuel with
  | zero =>
    constructor
    · intro h pending depth inner f args site tail enough
      exact absurd enough (Nat.not_lt_zero _)
    · intro pending depth inner name site plan enough
      exact absurd enough (Nat.not_lt_zero _)
  | succ fuel ih =>
    constructor
    · intro h pending depth inner f args site tail enough heap stack now
      have meant := target_placed host heap f args
      unfold call
      split
      · rename_i params variadic body place env same
        rw [same] at meant
        obtain ⟨chunk, placed⟩ := meant
        -- Too many calls, or a frame for the activation. A call in tail position first leaves the
        -- one it stands in.
        split
        · exact ⟨heap, stack, failAt_placed stack now _⟩
        · simp only
          split
          · obtain ⟨stack, now⟩ := leaveActivation_placed stack nowhere
            exact begin_placed placed (heap.newCells _ _) stack now _ _ _ _ _
          · exact begin_placed placed (heap.newCells _ _) stack now _ _ _ _ _
      · rename_i name run same
        rw [same] at meant
        refine ih.2 depth name (by omega) (meant h heap) ?_ ?_
        · split
          · exact ⟨trivial, stack⟩
          · exact stack
        · split
          · exact now
          · exact now
      · exact ⟨heap, stack, failAt_placed stack now _⟩
    · intro pending depth inner name site plan enough safe stack now
      cases plan with
      | finish h vs =>
        rw [perform]
        exact ⟨safe, stack, trivial⟩
      | fail h fault =>
        rw [perform]
        exact ⟨safe, stack, failNative_placed stack now name fault⟩
      -- A plan that calls waits on top of what was there; the call itself comes from no line of the
      -- program.
      | call h f args after =>
        rw [perform]
        split
        · exact ⟨safe.1, stack, failNative_placed stack now name (.plain "C stack overflow")⟩
        · exact ih.1 depth f args false (by omega) safe.1 ⟨⟨now, safe.2⟩, stack⟩ nowhere

include nowhere in
/-- **A call keeps lines.** -/
theorem call_placed (depth inner : Nat) (f : Value) (args : List Value) {site : Site} (tail : Bool)
    (heap : h.Placed allowed) (stack : Stack allowed pending)
    (now : allowed (here pending) site.line) :
    (call host directCalls h pending depth inner f args site tail).Placed allowed :=
  (calls_placed host nowhere directCalls).1 depth f args tail (by rw [directCalls, maxInner]; omega)
    heap stack now

end Calls

/-! ## Jumps -/

/-- What follows a label is the rest of its block. -/
theorem afterLabel?_suffix {name : String} {whole next : List Statement} {visible : Nat}
    (found : afterLabel? name whole = some (next, visible)) : next <:+ whole := by
  fun_induction afterLabel? name whole with
  | case1 => exact nomatch found
  | case2 depth rest n same =>
    obtain ⟨rfl, -⟩ := Prod.mk.inj (Option.some.inj found)
    exact List.suffix_cons _ _
  | case3 depth rest n other ih => exact (ih found).trans (List.suffix_cons _ _)
  | case4 s rest other ih => exact (ih found).trans (List.suffix_cons _ _)

theorem jump_placed (name : String) (stack : Stack allowed pending) :
    Stack allowed (jump name pending).2 ∧ (jump name pending).1.Placed allowed
      (here (jump name pending).2) := by
  fun_induction jump name pending with
  | case1 => exact ⟨trivial, trivial⟩
  | case2 rest whole scope pending after depth found =>
    obtain ⟨⟨-, all⟩, stack⟩ := stack
    exact ⟨stack, fun s mem => all s ((afterLabel?_suffix found).subset mem), all⟩
  | case3 rest whole scope pending missed ih => exact ih stack.2
  | case4 p pending other ih => exact ih stack.2

theorem leaveLoop_placed (stack : Stack allowed pending) : Stack allowed (leaveLoop pending) := by
  fun_induction leaveLoop pending with
  | case1 => exact trivial
  | case2 => exact stack.2
  | case3 => exact stack.2
  | case4 => exact stack.2
  | case5 => exact stack.2
  | case6 => exact stack.2
  | case7 p rest _ _ _ _ _ ih => exact ih stack.2

/-! ## Parts of expressions and statements -/

section Parts

variable {chunk : String}

theorem fieldExprs_placed {fields : List Field} (all : ∀ f ∈ fields, f.Placed allowed chunk) :
    ∀ e ∈ fieldExprs fields, e.Placed allowed chunk := by
  fun_induction fieldExprs fields with
  | case1 => nofun
  | case2 e fields ih =>
    obtain ⟨first, rest⟩ := List.forall_mem_cons.1 all
    cases first with
    | item placed => exact List.forall_mem_cons.2 ⟨placed, ih rest⟩
  | case3 key value line fields ih =>
    obtain ⟨first, rest⟩ := List.forall_mem_cons.1 all
    cases first with
    | pair first second _ =>
      exact List.forall_mem_cons.2 ⟨first, List.forall_mem_cons.2 ⟨second, ih rest⟩⟩

theorem targetExprs_placed {targets : List Expr} (all : ∀ e ∈ targets, e.Placed allowed chunk) :
    ∀ e ∈ targetExprs targets, e.Placed allowed chunk := by
  fun_induction targetExprs targets with
  | case1 => nofun
  | case2 object key global line rest ih =>
    obtain ⟨first, rest⟩ := List.forall_mem_cons.1 all
    cases first with
    | index first second _ =>
      exact List.forall_mem_cons.2 ⟨first, List.forall_mem_cons.2 ⟨second, ih rest⟩⟩
  | case3 e rest other ih => exact ih (List.forall_mem_cons.1 all).2

/-- A key that cannot be set is blamed on the line of its entry. -/
theorem constructorEntries_error {fields : List Field} {vs items : List Value} {t : Table}
    {line : Nat} {message : String} (all : ∀ f ∈ fields, f.Placed allowed chunk)
    (refused : constructorEntries fields vs t items = .error (line, message)) :
    allowed chunk line := by
  fun_induction constructorEntries fields vs t items with
  | case1 => exact nomatch refused
  | case2 => exact nomatch refused
  | case3 e fields _ v vs t items ih => exact ih (List.forall_mem_cons.1 all).2 refused
  | case4 e fields _ t items ih => exact ih (List.forall_mem_cons.1 all).2 refused
  | case5 key value line fields vs t items k key' found rest ih =>
    exact ih (List.forall_mem_cons.1 all).2 refused
  | case6 key value line fields vs t items k found =>
    obtain ⟨rfl, -⟩ := Prod.mk.inj (Except.error.inj refused)
    cases (List.forall_mem_cons.1 all).1 with
    | pair _ _ here => exact here

theorem construct_error {fields : List Field} {vs : List Value} {line : Nat} {message : String}
    (all : ∀ f ∈ fields, f.Placed allowed chunk)
    (refused : construct fields vs = .error (line, message)) :
    allowed chunk line := by
  unfold construct at refused
  simp only at refused
  split at refused
  · exact nomatch refused
  · rename_i failed
    obtain rfl := Except.error.inj refused
    exact constructorEntries_error all failed

theorem tailCall?_mem {values : List Expr} {e : Expr} (found : tailCall? values = some e) :
    e ∈ values := by
  unfold tailCall? at found
  split at found
  · exact Option.some.inj found ▸ List.mem_singleton_self _
  · exact Option.some.inj found ▸ List.mem_singleton_self _
  · exact nomatch found

end Parts

/-- Assigning changes variables and tables. -/
theorem assignAll_placed (heap : h.Placed allowed) (all : List (Spot × Value)) :
    (∀ h', assignAll h all = .ok h' → h'.Placed allowed) ∧ ∀ e, assignAll h all = .error e →
      e.1.Placed allowed := by
  induction all generalizing h with
  | nil => exact ⟨fun h' same => Except.ok.inj same ▸ heap, fun e same => nomatch same⟩
  | cons p all ih =>
    obtain ⟨spot, v⟩ := p
    cases spot with
    | cell ref => exact ih (heap.of_functions rfl)
    | entry object key e =>
      unfold assignAll
      split
      · split
        · exact ih (heap.updateTable _ _)
        · exact ⟨fun h' same => (nomatch same), fun e same => Except.error.inj same ▸ heap⟩
      · exact ⟨fun h' same => (nomatch same), fun e same => Except.error.inj same ▸ heap⟩

/-! ## Steps -/

section Steps

variable (host : Host) (nowhere : allowed "" 0) (heap : h.Placed allowed)

include heap in
theorem failing_placed {line : Nat} (stack : Stack allowed pending)
    (now : allowed (here pending) line) (message : String) :
    (State.failing h pending depth inner line message).Placed allowed :=
  ⟨heap, stack, failAt_placed stack now message⟩

include nowhere heap

theorem deliverLookup_placed (objectExpr : Expr) (object key : Value) {line : Nat}
    (stack : Stack allowed pending) (now : allowed (here pending) line) :
    (deliverLookup host h pending depth inner objectExpr object key line).Placed allowed := by
  unfold deliverLookup
  split
  · exact ⟨heap, stack, trivial⟩
  · exact call_placed host nowhere depth inner _ _ _ heap ⟨trivial, stack⟩ now
  · exact failing_placed heap stack now _

omit nowhere in
theorem startRound_placed {body : List Statement} {vs : List Value} {scope : Scope}
    (stack : Stack allowed pending) (all : ∀ s ∈ body, s.Placed allowed (here pending)) :
    (startRound h pending depth inner vs body scope).Placed allowed :=
  ⟨heap.newCells _ _, stack, all, all⟩

theorem apply_placed {use : Use} (stack : Stack allowed pending)
    (fits : use.Placed allowed (here pending)) (vs : List Value) :
    (apply host h pending depth inner use vs).Placed allowed := by
  unfold apply
  -- What the values are used for was recorded with the lines that may fail there (`fits`).
  cases use with
  | call line origin tail => exact call_placed host nowhere depth inner _ _ tail heap stack fits
  | index object line => exact deliverLookup_placed host nowhere heap _ _ _ stack fits
  | binary op a b line =>
    simp only
    split
    · exact ⟨heap, stack, trivial⟩
    · exact failing_placed heap stack fits _
  | unary op a line =>
    simp only
    split
    · exact ⟨heap, stack, trivial⟩
    · exact failing_placed heap stack fits _
  | both b scope =>
    simp only
    split
    · exact ⟨heap, ⟨trivial, stack⟩, fits⟩
    · exact ⟨heap, stack, trivial⟩
  | either b scope =>
    simp only
    split
    · exact ⟨heap, stack, trivial⟩
    · exact ⟨heap, ⟨trivial, stack⟩, fits⟩
  | table fields =>
    simp only
    split
    · exact ⟨heap.newTable _, stack, trivial⟩
    · rename_i refused
      exact failing_placed heap stack (construct_error fits refused) _
  | self object name args nameLine line tail scope =>
    obtain ⟨all, named, now⟩ := fits
    exact deliverLookup_placed host nowhere heap _ _ _ ⟨⟨all, now⟩, stack⟩ named
  | ret => exact ⟨heap, (leaveActivation_placed stack nowhere).1, trivial⟩
  | discard rest whole scope => exact ⟨heap, stack, fits⟩
  | locals count closing line rest whole scope =>
    simp only
    split
    · exact failing_placed heap stack fits.1 _
    · exact ⟨heap.newCells _ _, stack, fits.2⟩
  | assign targets line rest whole scope =>
    -- The store is placed whether all targets are assigned or one of them fails.
    have assigned := assignAll_placed heap
      ((places scope.vars targets vs).1.zip
        (adjust (places scope.vars targets vs).1.length (places scope.vars targets vs).2)).reverse
    simp only
    split <;> rename_i outcome
    · exact ⟨assigned.1 _ outcome, stack, fits.2⟩
    · exact failing_placed (assigned.2 _ outcome) stack fits.1 _
  | branch body arms otherwise scope =>
    obtain ⟨all, others, last⟩ := fits
    simp only
    split
    · exact ⟨heap, stack, all, all⟩
    · split
      · exact ⟨heap, stack, last, last⟩
      · obtain ⟨⟨condition, body⟩, others⟩ := List.forall_mem_cons.1 others
        exact ⟨heap, ⟨⟨nofun, body, others, last⟩, stack⟩, condition⟩
  | loopWhile condition body scope =>
    simp only
    split
    · exact ⟨heap, ⟨fits, stack⟩, fits.2, fits.2⟩
    · exact ⟨heap, stack, trivial⟩
  | endUnless =>
    simp only
    split
    · obtain ⟨all, stack⟩ := stack
      split
      · exact ⟨heap, stack, trivial⟩
      · exact ⟨heap, ⟨all, stack⟩, all, all⟩
    · exact ⟨heap, stack, trivial⟩
  | loopNumbers body line scope =>
    simp only
    split
    · exact failing_placed heap stack fits.1 _
    · exact ⟨heap, stack, trivial⟩
    · exact startRound_placed heap ⟨fits.2, stack⟩ fits.2
    · exact startRound_placed heap ⟨fits.2, stack⟩ fits.2
  | loopValues count body line scope =>
    simp only
    split
    · exact failing_placed heap stack fits.1 _
    · exact call_placed host nowhere depth inner _ _ _ heap ⟨fits, stack⟩ fits.1

theorem gather_placed {use : Use} {es : List Expr} {scope : Scope} {done : List Value}
    (stack : Stack allowed pending) (fits : use.Placed allowed (here pending))
    (all : ∀ e ∈ es, e.Placed allowed (here pending)) :
    (gather host h pending depth inner scope use es done).Placed allowed := by
  induction es generalizing done with
  | nil =>
    rw [gather]
    exact apply_placed host nowhere heap stack fits _
  | cons e es ih =>
    obtain ⟨first, rest⟩ := List.forall_mem_cons.1 all
    rw [gather]
    split
    · exact ih rest
    · exact ⟨heap, ⟨⟨rest, fits⟩, stack⟩, first⟩

/-- An expression is taken apart. -/
theorem evaluate_placed {e : Expr} (stack : Stack allowed pending)
    (placed : e.Placed allowed (here pending)) (scope : Scope) (tail : Bool) :
    (evaluate host h pending depth inner scope tail e).Placed allowed := by
  unfold evaluate
  -- The operands are gathered first, and their operation fails on the line that is recorded with
  -- it.
  cases placed with
  | const v => exact ⟨heap, stack, trivial⟩
  | vararg => exact ⟨heap, stack, trivial⟩
  | var i name outer => exact ⟨heap, stack, trivial⟩
  | index first second now =>
    exact gather_placed host nowhere heap stack now
      (List.forall_mem_cons.2 ⟨first, List.forall_mem_singleton.2 second⟩)
  | call first rest now =>
    exact gather_placed host nowhere heap stack now (List.forall_mem_cons.2 ⟨first, rest⟩)
  | method first rest named now =>
    exact gather_placed host nowhere heap stack ⟨rest, named, now⟩
      (List.forall_mem_singleton.2 first)
  | closure placed =>
    refine ⟨heap.newFunction ?_, stack, trivial⟩
    rintro f env ⟨⟩
    exact ⟨_, placed⟩
  | binary first second now =>
    exact gather_placed host nowhere heap stack now
      (List.forall_mem_cons.2 ⟨first, List.forall_mem_singleton.2 second⟩)
  | unary first now =>
    exact gather_placed host nowhere heap stack now (List.forall_mem_singleton.2 first)
  | both first second =>
    exact gather_placed host nowhere heap stack second (List.forall_mem_singleton.2 first)
  | either first second =>
    exact gather_placed host nowhere heap stack second (List.forall_mem_singleton.2 first)
  | table all => exact gather_placed host nowhere heap stack all (fieldExprs_placed all)
  | single inner => exact ⟨heap, ⟨trivial, stack⟩, inner⟩

/-- The first statement of a block is executed. -/
theorem execute_placed {whole rest : List Statement} (stack : Stack allowed pending)
    (block : ∀ s ∈ whole, s.Placed allowed (here pending))
    (all : ∀ s ∈ rest, s.Placed allowed (here pending)) (scope : Scope) :
    (execute host h pending depth inner whole scope rest).Placed allowed := by
  cases rest with
  | nil => exact ⟨heap, stack, trivial⟩
  | cons s rest =>
    obtain ⟨first, rest⟩ := List.forall_mem_cons.1 all
    unfold execute
    -- Each statement goes on with its first expression, its block, or the rest of the block it
    -- stands in.
    cases first with
    | locals values now => exact gather_placed host nowhere heap stack ⟨now, rest, block⟩ values
    | localFunction placed =>
      have added {f : Function} (placed : f.Placed allowed (here pending)) (vars : List Nat) :
          ((h.newCells scope.vars [.nil]).1.newFunction (.closure f vars)).1.Placed allowed := by
        refine (heap.newCells _ _).newFunction ?_
        rintro f env ⟨⟩
        exact ⟨_, placed⟩
      exact ⟨(added placed _).of_functions rfl, stack, rest, block⟩
    | assign places values now =>
      exact gather_placed host nowhere heap stack ⟨now, rest, block⟩
        (List.forall_mem_append.2 ⟨targetExprs_placed places, values⟩)
    | call placed => exact ⟨heap, ⟨⟨nofun, rest, block⟩, stack⟩, placed⟩
    | block body => exact ⟨heap, ⟨⟨rest, block⟩, stack⟩, body, body⟩
    | loopWhile condition body =>
      exact gather_placed host nowhere heap ⟨⟨rest, block⟩, stack⟩ ⟨condition, body⟩
        (List.forall_mem_singleton.2 condition)
    | loopUntil body => exact ⟨heap, ⟨body, ⟨rest, block⟩, stack⟩, body, body⟩
    | endUnless condition =>
      exact gather_placed host nowhere heap stack trivial (List.forall_mem_singleton.2 condition)
    | branch conditions bodies last =>
      simp only
      split
      · exact ⟨heap, ⟨⟨rest, block⟩, stack⟩, last, last⟩
      · obtain ⟨condition, conditions⟩ := List.forall_mem_cons.1 conditions
        obtain ⟨body, bodies⟩ := List.forall_mem_cons.1 bodies
        exact gather_placed host nowhere heap ⟨⟨rest, block⟩, stack⟩
          ⟨body, fun arm mem => ⟨conditions arm mem, bodies arm mem⟩, last⟩
            (List.forall_mem_singleton.2 condition)
    | loopNumbers start limit step body now =>
      refine gather_placed host nowhere heap ⟨⟨rest, block⟩, stack⟩ ⟨now, body⟩ ?_
      exact List.forall_mem_cons.2 ⟨start,
        List.forall_mem_cons.2 ⟨limit, List.forall_mem_singleton.2 step⟩⟩
    | loopValues values body now =>
      exact gather_placed host nowhere heap ⟨⟨rest, block⟩, stack⟩ ⟨now, body⟩ values
    | ret values =>
      simp only
      split
      -- A call that is returned is evaluated in tail position; all other values are gathered.
      · rename_i found
        exact evaluate_placed host nowhere heap stack (values _ (tailCall?_mem found)) _ _
      · exact gather_placed host nowhere heap stack trivial values
    | breakLoop => exact ⟨heap, leaveLoop_placed stack, trivial⟩
    | goto label =>
      simp only
      split
      · rename_i found
        exact ⟨heap, stack, fun s mem => block s ((afterLabel?_suffix found).subset mem), block⟩
      · obtain ⟨stack, now⟩ := jump_placed label stack
        exact ⟨heap, stack, now⟩
    | label name depth => exact ⟨heap, stack, rest, block⟩

omit nowhere heap in
theorem State.placed_ite {c : Prop} [Decidable c] {s t : State} (yes : s.Placed allowed)
    (no : t.Placed allowed) : (if c then s else t).Placed allowed := by
  split
  · exact yes
  · exact no

/-- Values are handed to what waits for them. -/
theorem hand_placed (stack : Stack allowed pending) (vs : List Value) :
    (hand host h depth inner vs pending).Placed allowed := by
  cases pending with
  | nil => exact ⟨heap, trivial, trivial⟩
  | cons p pending =>
    obtain ⟨fits, stack⟩ := stack
    unfold hand
    cases p with
    | values todo done scope use =>
      cases todo with
      | nil => exact apply_placed host nowhere heap stack fits.2 _
      | cons e todo => exact gather_placed host nowhere heap stack fits.2 fits.1
    | single => exact ⟨heap, stack, trivial⟩
    | method object name args line tail scope =>
      exact gather_placed host nowhere heap stack fits.2 fits.1
    | sequence rest whole scope => exact ⟨heap, stack, fits⟩
    | whileBody condition body scope =>
      exact gather_placed host nowhere heap stack fits (List.forall_mem_singleton.2 fits.1)
    | untilBody body scope => exact ⟨heap, ⟨fits, stack⟩, fits, fits⟩
    | ints left i step body scope =>
      simp only
      split
      · exact ⟨heap, stack, trivial⟩
      · exact startRound_placed heap ⟨fits, stack⟩ fits
    | floats x limit step body scope =>
      -- Which limit ends the loop depends on its direction.
      exact State.placed_ite (startRound_placed heap ⟨fits, stack⟩ fits) ⟨heap, stack, trivial⟩
    | produced f s count body line scope =>
      simp only
      split
      · exact ⟨heap, stack, trivial⟩
      · exact startRound_placed heap ⟨fits, stack⟩ fits.2
    | eachBody f s control count body line scope =>
      exact call_placed host nowhere depth inner _ _ _ heap ⟨fits, stack⟩ fits.1
    | activation callee place site tail => exact ⟨heap, stack, trivial⟩
    | native name site after =>
      exact (calls_placed host nowhere directCalls).2 depth name
        (by rw [directCalls, maxInner]; omega)
        (fits.2 h vs heap) stack fits.1
    | returning => exact ⟨heap, (leaveActivation_placed stack nowhere).1, trivial⟩

omit heap in
/-- **A step keeps lines.** -/
theorem step_placed {s : State} (placed : s.Placed allowed) : (step host s).Placed allowed := by
  obtain ⟨h, control, pending, depth, inner⟩ := s
  obtain ⟨heap, stack, now⟩ := placed
  unfold step
  cases control with
  | eval e scope => exact evaluate_placed host nowhere heap stack now scope false
  | exec rest whole scope => exact execute_placed host nowhere heap stack now.2 now.1 scope
  | deliver vs => exact hand_placed host nowhere heap stack vs
  | finished vs => exact ⟨heap, stack, trivial⟩
  | failed f => exact ⟨heap, stack, now⟩

end Steps

/-! ## Runs -/

/-- What a program comes to: if it fails, it fails at lines that are allowed. -/
def Outcome.Placed (allowed : String → Nat → Prop) : Outcome → Prop
  | .failed h f => h.Placed allowed ∧ ∃ message, f.Placed allowed message
  | .finished h _ | .exhausted h _ => h.Placed allowed

theorem State.Placed.failed {s : State} {f : Failure} (placed : s.Placed allowed)
    (failed : s.control = .failed f) :
    ∃ message, f.Placed allowed message := by
  have now := placed.control
  rw [failed] at now
  exact now

theorem State.run_placed (host : Host) (nowhere : allowed "" 0) (fuel : Nat) {s : State}
    (placed : s.Placed allowed) : (s.run host fuel).Placed allowed := by
  induction fuel generalizing s with
  | zero =>
    unfold State.run
    split
    · exact placed.heap
    · rename_i f failed
      exact ⟨placed.heap, placed.failed failed⟩
    · exact placed.heap
  | succ fuel ih =>
    unfold State.run
    split
    · exact placed.heap
    · rename_i f failed
      exact ⟨placed.heap, placed.failed failed⟩
    · exact ih (step_placed host nowhere placed)

/-- **A program fails at its own lines.** -/
theorem Function.run_placed {f : Function} {chunk : String} (host : Host) (nowhere : allowed "" 0)
    (heap : h.Placed allowed) (placed : f.Placed allowed chunk) (fuel : Nat) :
    (f.run host h fuel).Placed allowed := by
  have added {g : Heap} (begun : g.Placed allowed) (env : List Nat) :
      (g.newFunction (.closure f env)).1.Placed allowed := by
    refine begun.newFunction ?_
    rintro f env ⟨⟩
    exact ⟨chunk, placed⟩
  exact State.run_placed host nowhere fuel
    (call_placed host nowhere 0 0 _ _ _ (added (heap.newCell _) _) trivial nowhere)

end Conveyor.Lua
