/-
The lines in a program that is read.

The reader takes every line from a lexeme: the line of the one that it has reached, or of the one
that it used last. So the lines in the tree of a program, and the line on which a program is
refused, are lines of its lexemes (`parse_placed`). Reading is put together from small steps, and
each step keeps what is needed (`Read.Keeps`).
-/
import Conveyor.Lua.Parser

set_option autoImplicit false

namespace Conveyor.Lua

/-! ## Trees -/

section Placed

variable (allowed : String → Nat → Prop) (chunk : String)

mutual

/-- An expression of a chunk whose lines are allowed there. -/
inductive Expr.Placed : Expr → Prop where
  | const (v : Value) : Expr.Placed (.const v)
  | vararg : Expr.Placed .vararg
  | var (i : Nat) (name : String) (outer : Bool) : Expr.Placed (.var i name outer)
  | index {object key : Expr} {global : Bool} {line : Nat} (first : Expr.Placed object)
    (second : Expr.Placed key)
    (here : allowed chunk line) : Expr.Placed (.index object key global line)
  | call {callee : Expr} {args : List Expr} {line : Nat} (first : Expr.Placed callee)
    (rest : ∀ e ∈ args, Expr.Placed e) (here : allowed chunk line) :
      Expr.Placed (.call callee args line)
  | method {object : Expr} {name : String} {args : List Expr} {nameLine line : Nat}
    (first : Expr.Placed object)
    (rest : ∀ e ∈ args, Expr.Placed e) (there : allowed chunk nameLine)
      (here : allowed chunk line) :
    Expr.Placed (.method object name args nameLine line)
  | closure {f : Function} (placed : Function.Placed f) : Expr.Placed (.closure f)
  | binary {op : BinaryOp} {a b : Expr} {line : Nat} (first : Expr.Placed a)
    (second : Expr.Placed b)
    (here : allowed chunk line) : Expr.Placed (.binary op a b line)
  | unary {op : UnaryOp} {a : Expr} {line : Nat} (first : Expr.Placed a)
    (here : allowed chunk line) :
    Expr.Placed (.unary op a line)
  | both {a b : Expr} (first : Expr.Placed a) (second : Expr.Placed b) : Expr.Placed (.both a b)
  | either {a b : Expr} (first : Expr.Placed a) (second : Expr.Placed b) : Expr.Placed (.either a b)
  | table {fields : List Field} (all : ∀ f ∈ fields, Field.Placed f) : Expr.Placed (.table fields)
  | single {e : Expr} (inner : Expr.Placed e) : Expr.Placed (.single e)

/-- An entry of a table constructor. -/
inductive Field.Placed : Field → Prop where
  | item {e : Expr} (placed : Expr.Placed e) : Field.Placed (.item e)
  | pair {key value : Expr} {line : Nat} (first : Expr.Placed key) (second : Expr.Placed value)
    (here : allowed chunk line) : Field.Placed (.pair key value line)

/-- A function of the chunk; a whole chunk has no line. -/
inductive Function.Placed : Function → Prop where
  | mk {params : Nat} {variadic : Bool} {body : List Statement} {line : Nat} (all : ∀ s ∈ body,
    Statement.Placed s)
    (here : line = 0 ∨ allowed chunk line) :
      Function.Placed (.mk params variadic body ⟨chunk, line⟩)

/-- A statement. -/
inductive Statement.Placed : Statement → Prop where
  | locals {count : Nat} {closing : Option (Nat × String)} {values : List Expr} {line : Nat}
    (all : ∀ e ∈ values, Expr.Placed e) (here : allowed chunk line) :
    Statement.Placed (.locals count closing values line)
  | localFunction {f : Function} (placed : Function.Placed f) : Statement.Placed (.localFunction f)
  | assign {targets values : List Expr} {line : Nat} (places : ∀ e ∈ targets, Expr.Placed e)
    (all : ∀ e ∈ values, Expr.Placed e) (here : allowed chunk line) :
      Statement.Placed (.assign targets values line)
  | call {e : Expr} (placed : Expr.Placed e) : Statement.Placed (.call e)
  | block {body : List Statement} (all : ∀ s ∈ body, Statement.Placed s) :
    Statement.Placed (.block body)
  | loopWhile {condition : Expr} {body : List Statement} {line : Nat}
    (placed : Expr.Placed condition)
    (all : ∀ s ∈ body, Statement.Placed s) : Statement.Placed (.loopWhile condition body line)
  | loopUntil {body : List Statement} {line : Nat} (all : ∀ s ∈ body, Statement.Placed s) :
    Statement.Placed (.loopUntil body line)
  | endUnless {condition : Expr} (placed : Expr.Placed condition) :
    Statement.Placed (.endUnless condition)
  | branch {arms : List (Expr × List Statement)} {otherwise : List Statement}
    (conditions : ∀ arm ∈ arms, Expr.Placed arm.1) (bodies : ∀ arm ∈ arms, ∀ s ∈ arm.2,
      Statement.Placed s)
    (last : ∀ s ∈ otherwise, Statement.Placed s) : Statement.Placed (.branch arms otherwise)
  | loopNumbers {start limit step : Expr} {body : List Statement} {line : Nat}
    (first : Expr.Placed start)
    (second : Expr.Placed limit) (third : Expr.Placed step) (all : ∀ s ∈ body, Statement.Placed s)
    (here : allowed chunk line) : Statement.Placed (.loopNumbers start limit step body line)
  | loopValues {count : Nat} {source : List Expr} {body : List Statement} {line : Nat}
    (values : ∀ e ∈ source, Expr.Placed e) (all : ∀ s ∈ body, Statement.Placed s)
      (here : allowed chunk line) :
    Statement.Placed (.loopValues count source body line)
  | ret {values : List Expr} (all : ∀ e ∈ values, Expr.Placed e) : Statement.Placed (.ret values)
  | breakLoop : Statement.Placed .breakLoop
  | goto (label : String) : Statement.Placed (.goto label)
  | label (name : String) (depth : Nat) : Statement.Placed (.label name depth)

end

/-- A program that nests too deeply is refused without a line, any other on a line that is
allowed. -/
def Problem.Placed (p : Problem) : Prop := p = ⟨"C stack overflow", "", 0⟩ ∨ allowed chunk p.line

end Placed

namespace Parser

variable {allowed : String → Nat → Prop} {chunk : String} {α β : Type}

/-! ## Steps of the reader -/

/-- What the reader keeps tells lines that are allowed. -/
structure State.Sound (allowed : String → Nat → Prop) (chunk : String) (s : State) : Prop where
  same : s.chunk = chunk
  rest : ∀ l ∈ s.rest, allowed chunk l.line
  last : allowed chunk s.last
  first : allowed chunk 1

/-- What a step comes to: something with a property in a sound state, or a refusal on a line that is
allowed. -/
def Read.Result (allowed : String → Nat → Prop) (chunk : String) (P : α → Prop) :
    Except Problem (α × State) → Prop
  | .ok (a, s) => P a ∧ s.Sound allowed chunk
  | .error p => p.Placed allowed chunk

/-- From a sound state, a step comes to something with a property. -/
def Read.Keeps (allowed : String → Nat → Prop) (chunk : String) (P : α → Prop) (r : Read α) :
    Prop :=
  ∀ s : State, s.Sound allowed chunk → Read.Result allowed chunk P (r s)

namespace Read.Keeps

variable {P Q : α → Prop} {r : Read α}

theorem pure {a : α} (fits : P a) : Keeps allowed chunk P (Pure.pure a : Read α) :=
  fun _ sound => ⟨fits, sound⟩

theorem bind {P : β → Prop} {f : α → Read β} (first : Keeps allowed chunk Q r)
    (later : ∀ a, Q a → Keeps allowed chunk P (f a)) : Keeps allowed chunk P (r >>= f) := by
  intro s sound
  have mid := first s sound
  show Read.Result allowed chunk P (r s >>= fun p => f p.1 p.2)
  cases came : r s with
  | ok p =>
    rw [came] at mid
    exact later p.1 mid.1 p.2 mid.2
  | error p =>
    rw [came] at mid
    exact mid

theorem get : Keeps allowed chunk (State.Sound allowed chunk) (MonadState.get : Read State) :=
  fun _ sound => ⟨sound, sound⟩

theorem set {s : State} (sound : s.Sound allowed chunk) :
    Keeps allowed chunk (fun _ => True) (MonadState.set s : Read PUnit) :=
  fun _ _ => ⟨trivial, sound⟩

theorem modify {f : State → State}
    (keeps : ∀ s : State, s.Sound allowed chunk → (f s).Sound allowed chunk) :
    Keeps allowed chunk (fun _ => True) (modify f : Read PUnit) :=
  fun s sound => ⟨trivial, keeps s sound⟩

theorem throw {p : Problem} (placed : p.Placed allowed chunk) :
    Keeps allowed chunk P (MonadExcept.throw p : Read α) :=
  fun _ _ => placed

/-- What would follow a refusal does not matter. -/
theorem throw_bind {P : β → Prop} {p : Problem} {f : α → Read β} (placed : p.Placed allowed chunk) :
    Keeps allowed chunk P ((MonadExcept.throw p : Read α) >>= f) :=
  fun _ _ => placed

theorem ite {c : Prop} [Decidable c] {r r' : Read α} (yes : c → Keeps allowed chunk P r)
    (no : ¬c → Keeps allowed chunk P r') : Keeps allowed chunk P (if c then r else r') := by
  split
  · exact yes ‹_›
  · exact no ‹_›

end Read.Keeps

/-! ## The steps of which reading is put together -/

theorem current_keeps : Read.Keeps allowed chunk (fun l => allowed chunk l.line) current := by
  refine .bind .get fun s sound => .pure ?_
  cases rest : s.rest with
  | nil => exact sound.first
  | cons l more => exact sound.rest l (rest ▸ List.mem_cons_self)

theorem refuse_keeps {P : α → Prop} (message : String) :
    Read.Keeps allowed chunk P (refuse message) :=
  .bind current_keeps fun _ here => .throw (.inr here)

theorem reject_keeps {P : α → Prop} (message : String) :
    Read.Keeps allowed chunk P (reject message) :=
  .bind current_keeps fun _ here => .throw (.inr here)

theorem advance_keeps : Read.Keeps allowed chunk (fun _ => True) advance := by
  refine .bind .get fun s sound => ?_
  split
  · rename_i l next rest whole
    have all := sound.rest
    rw [whole] at all
    obtain ⟨here, all⟩ := List.forall_mem_cons.1 all
    refine .bind (.set ⟨sound.same, all, here, sound.first⟩) fun _ _ => ?_
    split
    · exact .throw (.inr (all next List.mem_cons_self))
    · exact .pure trivial
  · exact .pure trivial

theorem at?_keeps (sign : String) : Read.Keeps allowed chunk (fun _ => True) (at? sign) := by
  refine .bind current_keeps fun l _ => ?_
  split <;> exact .pure trivial

theorem accept_keeps (sign : String) : Read.Keeps allowed chunk (fun _ => True) (accept sign) := by
  refine .bind (at?_keeps sign) fun found _ => ?_
  split
  · exact .bind advance_keeps fun _ _ => .pure trivial
  · exact .pure trivial

theorem refuseWithout_keeps {P : α → Prop} (sign : String) :
    Read.Keeps allowed chunk P (refuseWithout sign) :=
  refuse_keeps _

theorem expect_keeps (sign : String) : Read.Keeps allowed chunk (fun _ => True) (expect sign) := by
  refine .bind (accept_keeps sign) fun found _ => ?_
  split
  · exact .pure trivial
  · exact refuseWithout_keeps sign

theorem close_keeps (sign opening : String) (line : Nat) :
    Read.Keeps allowed chunk (fun _ => True) (close sign opening line) := by
  refine .bind (accept_keeps sign) fun found _ => ?_
  split
  · exact .pure trivial
  · refine .bind current_keeps fun l _ => ?_
    split
    · exact refuseWithout_keeps sign
    · exact refuse_keeps _

theorem name_keeps : Read.Keeps allowed chunk (fun _ => True) name := by
  refine .bind current_keeps fun l _ => ?_
  split
  · exact .bind advance_keeps fun _ _ => .pure trivial
  · exact refuse_keeps _

theorem line_keeps : Read.Keeps allowed chunk (allowed chunk) line :=
  .bind current_keeps fun _ here => .pure here

theorem lastLine_keeps : Read.Keeps allowed chunk (allowed chunk) lastLine :=
  .bind .get fun _ sound => .pure sound.last

theorem blockEnds_keeps (untilToo : Bool) :
    Read.Keeps allowed chunk (fun _ => True) (blockEnds untilToo) := by
  refine .bind current_keeps fun l _ => ?_
  split <;> exact .pure trivial

/-! ## Scope -/

theorem deeper_keeps {P : α → Prop} {r : Read α} (keeps : r.Keeps allowed chunk P) :
    (deeper r).Keeps allowed chunk P := by
  refine .bind .get fun s sound => ?_
  have rest : Read.Keeps allowed chunk P (do
      set { s with nesting := s.nesting + 1 }
      let a ← r
      modify fun t => { t with nesting := s.nesting }
      return a) := by
    refine .bind (.set ⟨sound.same, sound.rest, sound.last, sound.first⟩) fun _ _ => ?_
    refine .bind keeps fun a fits => ?_
    exact .bind (.modify fun t later => ⟨later.same, later.rest, later.last, later.first⟩)
      fun _ _ => .pure fits
  split
  · exact .throw_bind (.inl rfl)
  · exact rest

theorem declare_keeps (names : List (String × VariableKind)) :
    (declare names).Keeps allowed chunk (fun _ => True) :=
  .bind .get fun _ sound => .set ⟨sound.same, sound.rest, sound.last, sound.first⟩

theorem checkLocals_keeps (more : Nat) :
    (checkLocals more).Keeps allowed chunk (fun _ => True) := by
  refine .bind .get fun s _ => ?_
  exact .ite (fun _ => refuse_keeps _) fun _ => .pure trivial

theorem resolve_keeps (n : String) :
    (resolve n).Keeps allowed chunk (Expr.Placed allowed chunk) := by
  refine .bind .get fun s sound => ?_
  split
  · exact .pure (.var _ _ _)
  · split
    · exact .pure (.index (.var _ _ _) (.const _) sound.last)
    · exact .pure (.const _)

theorem checkAssignable_keeps (e : Expr) :
    (checkAssignable e).Keeps allowed chunk (fun _ => True) := by
  unfold checkAssignable
  split
  · refine .bind .get fun s _ => ?_
    split
    · exact .pure trivial
    · exact reject_keeps _
  · exact .pure trivial

theorem inBlock_keeps {P : α → Prop} {r : Read α} (keeps : r.Keeps allowed chunk P) :
    (inBlock r).Keeps allowed chunk P := by
  refine .bind .get fun s sound => ?_
  refine .bind (.set ⟨sound.same, sound.rest, sound.last, sound.first⟩) fun _ _ => ?_
  refine .bind keeps fun a fits => ?_
  exact .bind (.modify fun t later => ⟨later.same, later.rest, later.last, later.first⟩) fun _ _ =>
    .pure fits

theorem inLoop_keeps {P : α → Prop} {r : Read α} (keeps : r.Keeps allowed chunk P) :
    (inLoop r).Keeps allowed chunk P := by
  refine .bind .get fun s sound => ?_
  refine .bind (.modify fun t later => ⟨later.same, later.rest, later.last, later.first⟩) fun _ _ =>
    ?_
  refine .bind keeps fun a fits => ?_
  exact .bind (.modify fun t later => ⟨later.same, later.rest, later.last, later.first⟩) fun _ _ =>
    .pure fits

theorem checkGotos_keeps : checkGotos.Keeps allowed chunk (fun _ => True) := by
  refine .bind .get fun s _ => ?_
  split
  · exact .pure trivial
  · split
    · exact reject_keeps _
    · exact reject_keeps _

theorem inFunction_keeps {P : α → Prop} {r : Read α} (variadic : Bool) (place : Nat)
    (keeps : r.Keeps allowed chunk P) : (inFunction variadic place r).Keeps allowed chunk P := by
  refine .bind .get fun s sound => ?_
  refine .bind (.set ⟨sound.same, sound.rest, sound.last, sound.first⟩) fun _ _ => ?_
  refine .bind keeps fun a fits => ?_
  refine .bind checkGotos_keeps fun _ _ => ?_
  exact .bind (.modify fun t later => ⟨later.same, later.rest, later.last, later.first⟩) fun _ _ =>
    .pure fits

theorem declareLabel_keeps (n : String) (line depth : Nat) :
    (declareLabel n line depth).Keeps allowed chunk (fun _ => True) := by
  refine .bind .get fun s sound => ?_
  split
  · exact reject_keeps _
  · exact .set ⟨sound.same, sound.rest, sound.last, sound.first⟩

/-! ## Names -/

theorem declaredKind_keeps : declaredKind.Keeps allowed chunk (fun _ => True) := by
  refine .bind (accept_keeps "<") fun attributed _ => ?_
  split
  · refine .bind name_keeps fun a _ => .bind (expect_keeps ">") fun _ _ => ?_
    split
    · exact .pure trivial
    · split
      · exact .pure trivial
      · exact reject_keeps _
  · exact .pure trivial

theorem newNames_keeps (fuel : Nat) (seen : List (String × VariableKind)) :
    (newNames fuel seen).Keeps allowed chunk (fun _ => True) := by
  induction fuel generalizing seen with
  | zero => exact .pure trivial
  | succ fuel ih =>
    refine .bind name_keeps fun n _ => .bind declaredKind_keeps fun a _ => ?_
    have rest : Read.Keeps allowed chunk (fun _ => True) (do
        if ← accept "," then newNames fuel ((n, a) :: seen)
          else return ((n, a) :: seen).reverse) := by
      refine .bind (accept_keeps ",") fun more _ => ?_
      exact .ite (fun _ => ih _) fun _ => .pure trivial
    exact .ite (fun _ => .bind (reject_keeps (P := fun _ => True) _) fun _ _ => rest) fun _ => rest

theorem names_keeps (fuel : Nat) : (names fuel).Keeps allowed chunk (fun _ => True) := by
  induction fuel with
  | zero => exact .pure trivial
  | succ fuel ih =>
    refine .bind name_keeps fun n _ => .bind (accept_keeps ",") fun more _ => ?_
    split
    · exact .bind ih fun _ _ => .pure trivial
    · exact .pure trivial

theorem parameters_keeps (fuel : Nat) : (parameters fuel).Keeps allowed chunk (fun _ => True) := by
  induction fuel with
  | zero => exact .pure trivial
  | succ fuel ih =>
    refine .bind current_keeps fun l _ => ?_
    split
    · refine .bind advance_keeps fun _ _ => .bind (accept_keeps ",") fun more _ => ?_
      split
      · exact .bind ih fun _ _ => .pure trivial
      · exact .pure trivial
    · exact .bind advance_keeps fun _ _ => .pure trivial
    · exact refuse_keeps _

/-! ## Expressions and statements -/

theorem exhausted_keeps {P : α → Prop} : (exhausted : Read α).Keeps allowed chunk P :=
  .throw (.inl rfl)

theorem constant_keeps (v : Value) : (constant v).Keeps allowed chunk (Expr.Placed allowed chunk) :=
  .bind advance_keeps fun _ _ => .pure (.const v)

theorem join_placed {op : Joiner} {a b : Expr} {line last : Nat} (first : a.Placed allowed chunk)
    (second : b.Placed allowed chunk) (here : allowed chunk line) (there : allowed chunk last) :
    (join op a b line last).Placed allowed chunk := by
  cases op with
  | binary op =>
    refine .binary first second ?_
    split
    · exact there
    · exact here
  | both => exact .both first second
  | either => exact .either first second

/-- With so much fuel, whatever is read has only lines that are allowed. -/
structure AllKeep (allowed : String → Nat → Prop) (chunk : String) (fuel : Nat) : Prop where
  expr : (expr fuel).Keeps allowed chunk (Expr.Placed allowed chunk)
  operand : ∀ limit, (operand fuel limit).Keeps allowed chunk (Expr.Placed allowed chunk)
  operators : ∀ limit a, a.Placed allowed chunk →
    (operators fuel limit a).Keeps allowed chunk (Expr.Placed allowed chunk)
  simple : (simple fuel).Keeps allowed chunk (Expr.Placed allowed chunk)
  primary : (primary fuel).Keeps allowed chunk (Expr.Placed allowed chunk)
  suffixed : (suffixed fuel).Keeps allowed chunk (Expr.Placed allowed chunk)
  suffixes : ∀ e, e.Placed allowed chunk →
    (suffixes fuel e).Keeps allowed chunk (Expr.Placed allowed chunk)
  arguments : (arguments fuel).Keeps allowed chunk fun es => ∀ e ∈ es, e.Placed allowed chunk
  exprs : (exprs fuel).Keeps allowed chunk fun es => ∀ e ∈ es, e.Placed allowed chunk
  table : (table fuel).Keeps allowed chunk (Expr.Placed allowed chunk)
  fields : (fields fuel).Keeps allowed chunk fun fs => ∀ f ∈ fs, f.Placed allowed chunk
  field : (field fuel).Keeps allowed chunk (Field.Placed allowed chunk)
  function : ∀ isMethod line, allowed chunk line →
    (function fuel isMethod line).Keeps allowed chunk (Function.Placed allowed chunk)
  statements : (statements fuel).Keeps allowed chunk fun ss => ∀ s ∈ ss, s.Placed allowed chunk
  block : (block fuel).Keeps allowed chunk fun ss => ∀ s ∈ ss, s.Placed allowed chunk
  statement : (statement fuel).Keeps allowed chunk fun ss => ∀ s ∈ ss, s.Placed allowed chunk
  label : ∀ n line, (label fuel n line).Keeps allowed chunk fun ss =>
    ∀ s ∈ ss, s.Placed allowed chunk
  idle : (idle fuel).Keeps allowed chunk fun ss => ∀ s ∈ ss, s.Placed allowed chunk
  conditional : ∀ line, (conditional fuel line).Keeps allowed chunk (Statement.Placed allowed chunk)
  arms : (arms fuel).Keeps allowed chunk fun arms =>
    ∀ arm ∈ arms, arm.1.Placed allowed chunk ∧ ∀ s ∈ arm.2, s.Placed allowed chunk
  counting : ∀ line, allowed chunk line →
    (counting fuel line).Keeps allowed chunk (Statement.Placed allowed chunk)
  loopBody : ∀ ns, (loopBody fuel ns).Keeps allowed chunk fun ss => ∀ s ∈ ss, s.Placed allowed chunk
  namedFunction : ∀ line, allowed chunk line →
    (namedFunction fuel line).Keeps allowed chunk (Statement.Placed allowed chunk)
  path : ∀ e, e.Placed allowed chunk → (path fuel e).Keeps allowed chunk fun p =>
    p.1.Placed allowed chunk
  exprStatement : (exprStatement fuel).Keeps allowed chunk (Statement.Placed allowed chunk)
  assignment : ∀ targets, (∀ e ∈ targets, e.Placed allowed chunk) →
    (assignment fuel targets).Keeps allowed chunk (Statement.Placed allowed chunk)

theorem allKeep_zero : AllKeep allowed chunk 0 := by
  -- Without fuel each of the parsers gives up at once.
  constructor <;> intros
  case expr => rw [expr]; exact exhausted_keeps
  case operand => rw [operand]; exact exhausted_keeps
  case operators => rw [operators]; exact exhausted_keeps
  case simple => rw [simple]; exact exhausted_keeps
  case primary => rw [primary]; exact exhausted_keeps
  case suffixed => rw [suffixed]; exact exhausted_keeps
  case suffixes => rw [suffixes]; exact exhausted_keeps
  case arguments => rw [arguments]; exact exhausted_keeps
  case exprs => rw [exprs]; exact exhausted_keeps
  case table => rw [table]; exact exhausted_keeps
  case fields => rw [fields]; exact exhausted_keeps
  case field => rw [field]; exact exhausted_keeps
  case function => rw [function]; exact exhausted_keeps
  case statements => rw [statements]; exact exhausted_keeps
  case block => rw [block]; exact exhausted_keeps
  case statement => rw [statement]; exact exhausted_keeps
  case label => rw [label]; exact exhausted_keeps
  case idle => rw [idle]; exact exhausted_keeps
  case conditional => rw [conditional]; exact exhausted_keeps
  case arms => rw [arms]; exact exhausted_keeps
  case counting => rw [counting]; exact exhausted_keeps
  case loopBody => rw [loopBody]; exact exhausted_keeps
  case namedFunction => rw [namedFunction]; exact exhausted_keeps
  case path => rw [path]; exact exhausted_keeps
  case exprStatement => rw [exprStatement]; exact exhausted_keeps
  case assignment => rw [assignment]; exact exhausted_keeps

section Fuel

variable {fuel : Nat} (all : AllKeep allowed chunk fuel)

include all

theorem operand_keeps (limit : Nat) : (operand (fuel + 1) limit).Keeps allowed chunk
    (Expr.Placed allowed chunk) := by
  unfold operand
  refine deeper_keeps (.bind current_keeps fun l here => ?_)
  split
  · rename_i op _
    refine .bind advance_keeps fun _ _ => .bind (all.operand _) fun a placed => ?_
    exact .bind (.pure (.unary placed here)) fun a placed => all.operators limit a placed
  · exact .bind all.simple fun a placed => all.operators limit a placed

theorem operators_keeps (limit : Nat) (a : Expr) (placed : a.Placed allowed chunk) :
    (operators (fuel + 1) limit a).Keeps allowed chunk (Expr.Placed allowed chunk) := by
  unfold operators
  refine .bind current_keeps fun l here => ?_
  split
  · refine .ite (fun _ => ?_) fun _ => .pure placed
    refine .bind advance_keeps fun _ _ => .bind (all.operand _) fun b other =>
      .bind lastLine_keeps fun last there => ?_
    exact all.operators limit _ (join_placed placed other here there)
  · exact .pure placed

theorem simple_keeps : (simple (fuel + 1)).Keeps allowed chunk (Expr.Placed allowed chunk) := by
  unfold simple
  refine .bind current_keeps fun l here => ?_
  split
  · exact constant_keeps _
  · exact constant_keeps _
  · exact constant_keeps _
  · exact constant_keeps _
  · exact constant_keeps _
  · refine .bind .get fun s _ => ?_
    refine .ite (fun _ => ?_) fun _ => ?_
    · exact .bind (refuse_keeps (P := fun _ => True) _) fun _ _ => .bind advance_keeps fun _ _ =>
        .pure .vararg
    · exact .bind advance_keeps fun _ _ => .pure .vararg
  · exact all.table
  · refine .bind line_keeps fun line there => .bind advance_keeps fun _ _ => ?_
    exact .bind (all.function false line there) fun f placed => .pure (.closure placed)
  · exact all.suffixed

theorem primary_keeps : (primary (fuel + 1)).Keeps allowed chunk (Expr.Placed allowed chunk) := by
  unfold primary
  refine .bind current_keeps fun l here => ?_
  split
  · exact .bind advance_keeps fun _ _ => resolve_keeps _
  · refine .bind advance_keeps fun _ _ => .bind all.expr fun e placed => ?_
    exact .bind (close_keeps _ _ _) fun _ _ => .pure (.single placed)
  · exact refuse_keeps _

theorem suffixes_keeps (e : Expr) (placed : e.Placed allowed chunk) :
    (suffixes (fuel + 1) e).Keeps allowed chunk (Expr.Placed allowed chunk) := by
  unfold suffixes
  refine .bind current_keeps fun l here => ?_
  split
  · refine .bind advance_keeps fun _ _ => .bind name_keeps fun key _ =>
      .bind lastLine_keeps fun last there => ?_
    exact all.suffixes _ (.index placed (.const _) there)
  · refine .bind advance_keeps fun _ _ => .bind all.expr fun key inner =>
      .bind (expect_keeps _) fun _ _ => ?_
    exact .bind lastLine_keeps fun last there => all.suffixes _ (.index placed inner there)
  · refine .bind advance_keeps fun _ _ => .bind name_keeps fun n _ =>
      .bind lastLine_keeps fun nameLine there => ?_
    refine .bind line_keeps fun line behind => .bind all.arguments fun args fit => ?_
    exact all.suffixes _ (.method placed fit there behind)
  · exact .bind all.arguments fun args fit => all.suffixes _ (.call placed fit here)
  · exact .bind all.arguments fun args fit => all.suffixes _ (.call placed fit here)
  · exact .bind all.arguments fun args fit => all.suffixes _ (.call placed fit here)
  · exact .pure placed

theorem arguments_keeps :
    (arguments (fuel + 1)).Keeps allowed chunk fun es => ∀ e ∈ es, e.Placed allowed chunk := by
  unfold arguments
  refine .bind current_keeps fun l here => ?_
  split
  · refine .bind advance_keeps fun _ _ => .bind (accept_keeps _) fun closed _ => ?_
    refine .ite (fun _ => .pure (List.forall_mem_nil _)) fun _ => ?_
    exact .bind all.exprs fun es fit => .bind (close_keeps _ _ _) fun _ _ => .pure fit
  · exact .bind all.table fun e placed => .pure (List.forall_mem_singleton.2 placed)
  · exact .bind advance_keeps fun _ _ => .pure (List.forall_mem_singleton.2 (.const _))
  · exact refuse_keeps _

theorem exprs_keeps : (exprs (fuel + 1)).Keeps allowed chunk fun es =>
    ∀ e ∈ es, e.Placed allowed chunk := by
  unfold exprs
  refine .bind all.expr fun e placed => .bind (accept_keeps ",") fun more _ => ?_
  refine .ite (fun _ => ?_) fun _ => .pure (List.forall_mem_singleton.2 placed)
  exact .bind all.exprs fun es fit => .pure (List.forall_mem_cons.2 ⟨placed, fit⟩)

theorem table_keeps : (table (fuel + 1)).Keeps allowed chunk (Expr.Placed allowed chunk) := by
  unfold table
  refine .bind line_keeps fun line _ => .bind (expect_keeps _) fun _ _ =>
    .bind all.fields fun fs fit => ?_
  exact .bind (close_keeps _ _ _) fun _ _ => .pure (.table fit)

theorem fields_keeps : (fields (fuel + 1)).Keeps allowed chunk fun fs =>
    ∀ f ∈ fs, f.Placed allowed chunk := by
  unfold fields
  refine .bind (at?_keeps _) fun closed _ => .ite (fun _ => .pure (List.forall_mem_nil _)) fun _ =>
    ?_
  refine .bind all.field fun f placed => ?_
  have more :
      Read.Keeps allowed chunk (fun fs => ∀ f ∈ fs, Field.Placed allowed chunk f)
        (do return f :: (← fields fuel)) :=
    .bind all.fields fun fs fit => .pure (List.forall_mem_cons.2 ⟨placed, fit⟩)
  refine .bind (accept_keeps ",") fun comma _ => ?_
  refine .bind (accept_keeps ";") fun semicolon _ => ?_
  exact .ite (fun _ => more) fun _ => .pure (List.forall_mem_singleton.2 placed)

theorem field_keeps : (field (fuel + 1)).Keeps allowed chunk (Field.Placed allowed chunk) := by
  unfold field
  have item : Read.Keeps allowed chunk (Field.Placed allowed chunk)
      (do return .item (← expr fuel)) :=
    .bind all.expr fun e placed => .pure (.item placed)
  refine .bind .get fun s sound => ?_
  split
  · refine .bind advance_keeps fun _ _ => .bind all.expr fun key inner => ?_
    refine .bind (expect_keeps _) fun _ _ => .bind (expect_keeps _) fun _ _ =>
      .bind all.expr fun v placed => ?_
    exact .bind lastLine_keeps fun last there => .pure (.pair inner placed there)
  · refine .bind advance_keeps fun _ _ => .bind advance_keeps fun _ _ =>
      .bind all.expr fun v placed => ?_
    exact .bind lastLine_keeps fun last there => .pure (.pair (.const _) placed there)
  · -- A name that stands alone is on the line of the lexeme behind it.
    rename_i n shown line next rest _ whole
    have lines := sound.rest
    rw [whole] at lines
    have behind := (List.forall_mem_cons.1 lines).2
    have sound' : State.Sound allowed chunk { s with
      rest := ⟨.name n, shown, next.line⟩ :: next :: rest } :=
      ⟨sound.same, List.forall_mem_cons.2 ⟨behind next List.mem_cons_self, behind⟩, sound.last,
        sound.first⟩
    exact .bind (.set sound') fun _ _ => item
  · exact item

theorem function_keeps (isMethod : Bool) (line : Nat) (here : allowed chunk line) :
    (function (fuel + 1) isMethod line).Keeps allowed chunk (Function.Placed allowed chunk) := by
  unfold function
  -- What follows the parameters.
  have rest (ps : List String) (variadic : Bool) :
      Read.Keeps allowed chunk (Function.Placed allowed chunk) (do
      let chunk := (← get).chunk
      inFunction variadic line do
        declare (ps.map fun p => (p, .plain))
        expect ")"
        let body ← statements fuel
        close "end" "function" line
        return .mk ps.length variadic body ⟨chunk, line⟩) := by
    refine .bind .get fun s sound => inFunction_keeps _ _ ?_
    refine .bind (declare_keeps _) fun _ _ => .bind (expect_keeps _) fun _ _ =>
      .bind all.statements fun body fit => ?_
    refine .bind (close_keeps _ _ _) fun _ _ => .pure ?_
    rw [sound.same]
    exact .mk fit (.inr here)
  refine .bind (expect_keeps _) fun _ _ => .bind (at?_keeps _) fun closed _ => ?_
  refine .ite (fun _ => ?_) fun _ => ?_
  · exact rest _ _
  · exact .bind (parameters_keeps _) fun p _ => rest _ _

theorem statements_keeps :
    (statements (fuel + 1)).Keeps allowed chunk fun ss => ∀ s ∈ ss, s.Placed allowed chunk := by
  unfold statements
  refine .bind (blockEnds_keeps _) fun ended _ =>
    .ite (fun _ => .pure (List.forall_mem_nil _)) fun _ => ?_
  refine .bind (at?_keeps _) fun last _ => .ite (fun _ => ?_) fun _ => ?_
  · exact deeper_keeps all.statement
  · refine .bind (deeper_keeps all.statement) fun ss fit => .bind all.statements fun more later =>
      ?_
    exact .pure (List.forall_mem_append.2 ⟨fit, later⟩)

theorem statement_keeps :
    (statement (fuel + 1)).Keeps allowed chunk fun ss => ∀ s ∈ ss, s.Placed allowed chunk := by
  unfold statement
  have one {s : Statement} (placed : s.Placed allowed chunk) : ∀ t ∈ [s], t.Placed allowed chunk :=
    List.forall_mem_singleton.2 placed
  refine .bind current_keeps fun l here => ?_
  split
  · exact .bind advance_keeps fun _ _ => .pure (List.forall_mem_nil _)
  · exact .bind (all.conditional _) fun s placed => .pure (one placed)
  · refine .bind advance_keeps fun _ _ => .bind all.expr fun c placed =>
      .bind (expect_keeps _) fun _ _ => ?_
    refine .bind (inLoop_keeps all.block) fun body fit => .bind (close_keeps _ _ _) fun _ _ => ?_
    exact .pure (one (.loopWhile placed fit))
  · refine .bind advance_keeps fun _ _ => .bind all.block fun body fit =>
      .bind (close_keeps _ _ _) fun _ _ => ?_
    exact .pure (one (.block fit))
  · exact .bind advance_keeps fun _ _ => .bind (all.counting _ here) fun s placed =>
      .pure (one placed)
  · refine .bind advance_keeps fun _ _ => .bind (inLoop_keeps (inBlock_keeps ?_)) fun body fit =>
      .pure (one (.loopUntil fit))
    refine .bind all.statements fun body fit => .bind (close_keeps _ _ _) fun _ _ =>
      .bind all.expr fun e placed => ?_
    exact .pure (List.forall_mem_append.2 ⟨fit, one (.endUnless placed)⟩)
  · exact .bind advance_keeps fun _ _ => .bind (all.namedFunction _ here) fun s placed =>
      .pure (one placed)
  · refine .bind advance_keeps fun _ _ => .bind (accept_keeps _) fun isFunction _ =>
      .ite (fun _ => ?_) fun _ => ?_
    · refine .bind name_keeps fun n _ => .bind (checkLocals_keeps _) fun _ _ =>
        .bind (declare_keeps _) fun _ _ => ?_
      exact .bind (all.function _ _ here) fun f placed => .pure (one (.localFunction placed))
    · refine .bind (newNames_keeps _ _) fun ns _ => .bind (checkLocals_keeps _) fun _ _ => ?_
      refine .bind (accept_keeps _) fun given _ => ?_
      -- What follows the values.
      have rest (es : List Expr) (fit : ∀ e ∈ es, e.Placed allowed chunk) :
          Read.Keeps allowed chunk (fun ss : List Statement => ∀ s ∈ ss, s.Placed allowed chunk) (do
            declare ns
            return [.locals ns.length (closingOf ns) es (← lastLine)]) :=
        .bind (declare_keeps _) fun _ _ => .bind lastLine_keeps fun last there =>
          .pure (one (.locals fit there))
      exact .ite (fun _ => .bind all.exprs rest) fun _ => rest [] (List.forall_mem_nil _)
  · exact .bind advance_keeps fun _ _ => .bind name_keeps fun n _ => all.label _ _
  · have rest (es : List Expr) (fit : ∀ e ∈ es, e.Placed allowed chunk) :
        Read.Keeps allowed chunk (fun ss : List Statement => ∀ s ∈ ss, s.Placed allowed chunk) (do
          let _ ← accept ";"
          return [.ret es]) :=
      .bind (accept_keeps _) fun _ _ => .pure (one (.ret fit))
    refine .bind advance_keeps fun _ _ => .bind (blockEnds_keeps _) fun ended _ =>
      .bind (at?_keeps _) fun empty _ => ?_
    exact .ite (fun _ => rest [] (List.forall_mem_nil _)) fun _ => .bind all.exprs rest
  · refine .bind advance_keeps fun _ _ => .bind .get fun s sound => .ite (fun _ => ?_) fun _ =>
      .pure (one .breakLoop)
    exact .bind (.set ⟨sound.same, sound.rest, sound.last, sound.first⟩) fun _ _ =>
      .pure (one .breakLoop)
  · refine .bind advance_keeps fun _ _ => .bind line_keeps fun line _ => .bind name_keeps fun n _ =>
      ?_
    refine .bind .get fun s sound => .ite (fun _ => ?_) fun _ => .pure (one (.goto n))
    exact .bind (.set ⟨sound.same, sound.rest, sound.last, sound.first⟩) fun _ _ =>
      .pure (one (.goto n))
  · exact .bind all.exprStatement fun s placed => .pure (one placed)

theorem label_keeps (n : String) (line : Nat) :
    (label (fuel + 1) n line).Keeps allowed chunk fun ss => ∀ s ∈ ss, s.Placed allowed chunk := by
  unfold label
  refine .bind (expect_keeps _) fun _ _ => .bind all.idle fun more fit =>
    .bind .get fun s sound => ?_
  split
  · exact reject_keeps _
  · refine .bind (blockEnds_keeps _) fun ended _ => .bind (declareLabel_keeps _ _ _) fun _ _ => ?_
    exact .pure (List.forall_mem_cons.2 ⟨.label _ _, fit⟩)

theorem idle_keeps : (idle (fuel + 1)).Keeps allowed chunk fun ss =>
    ∀ s ∈ ss, s.Placed allowed chunk := by
  unfold idle
  refine .bind (at?_keeps _) fun empty _ => .bind (at?_keeps _) fun marked _ =>
    .ite (fun _ => ?_) fun _ => .pure (List.forall_mem_nil _)
  refine .bind all.statement fun ss fit => .bind all.idle fun more later => ?_
  exact .pure (List.forall_mem_append.2 ⟨fit, later⟩)

theorem conditional_keeps (line : Nat) :
    (conditional (fuel + 1) line).Keeps allowed chunk (Statement.Placed allowed chunk) := by
  unfold conditional
  refine .bind all.arms fun arms fit => ?_
  have rest (ss : List Statement) (last : ∀ s ∈ ss, s.Placed allowed chunk) :
      Read.Keeps allowed chunk (Statement.Placed allowed chunk) (do
        close "end" "if" line
        return .branch arms ss) :=
    .bind (close_keeps _ _ _) fun _ _ =>
      .pure (.branch (fun arm mem => (fit arm mem).1) (fun arm mem => (fit arm mem).2) last)
  exact .bind (accept_keeps _) fun otherwise _ =>
    .ite (fun _ => .bind all.block rest) fun _ => rest [] (List.forall_mem_nil _)

theorem arms_keeps : (arms (fuel + 1)).Keeps allowed chunk fun arms =>
    ∀ arm ∈ arms, arm.1.Placed allowed chunk ∧ ∀ s ∈ arm.2, s.Placed allowed chunk := by
  unfold arms
  refine .bind advance_keeps fun _ _ => .bind all.expr fun c placed =>
    .bind (expect_keeps _) fun _ _ => ?_
  refine .bind all.block fun body fit => .bind (at?_keeps _) fun more _ =>
    .ite (fun _ => ?_) fun _ => ?_
  · exact .bind all.arms fun arms later => .pure (List.forall_mem_cons.2 ⟨⟨placed, fit⟩, later⟩)
  · exact .pure (List.forall_mem_singleton.2 ⟨placed, fit⟩)

theorem counting_keeps (line : Nat) (here : allowed chunk line) :
    (counting (fuel + 1) line).Keeps allowed chunk (Statement.Placed allowed chunk) := by
  unfold counting
  refine .bind name_keeps fun n _ => .bind (accept_keeps _) fun numbers _ =>
    .ite (fun _ => ?_) fun _ => ?_
  -- With a step or without one, the rest of the loop is read alike.
  · refine .bind all.expr fun start first => .bind (expect_keeps _) fun _ _ =>
      .bind all.expr fun limit second => ?_
    have rest (step : Expr) (third : step.Placed allowed chunk) :
        Read.Keeps allowed chunk (Statement.Placed allowed chunk) (do
          let body ← loopBody fuel [n]
          close "end" "for" line
          return .loopNumbers start limit step body line) :=
      .bind (all.loopBody _) fun body fit => .bind (close_keeps _ _ _) fun _ _ =>
        .pure (.loopNumbers first second third fit here)
    exact .bind (accept_keeps _) fun stepped _ => .ite (fun _ => .bind all.expr rest) fun _ =>
      rest _ (.const _)
  -- So it is with one name or several.
  · refine .bind (at?_keeps _) fun more _ => .bind (at?_keeps _) fun named _ =>
      .ite (fun _ => ?_) fun _ => ?_
    · have rest (ns : List String) : Read.Keeps allowed chunk (Statement.Placed allowed chunk) (do
          expect "in"
          let source ← exprs fuel
          let body ← loopBody fuel (n :: ns)
          close "end" "for" line
          return .loopValues (ns.length + 1) source body line) :=
        .bind (expect_keeps _) fun _ _ => .bind all.exprs fun source values =>
          .bind (all.loopBody _) fun body fit =>
          .bind (close_keeps _ _ _) fun _ _ => .pure (.loopValues values fit here)
      exact .bind (accept_keeps _) fun several _ =>
        .ite (fun _ => .bind (names_keeps _) fun ns _ => rest ns) fun _ => rest []
    · exact refuse_keeps _

theorem loopBody_keeps (ns : List String) :
    (loopBody (fuel + 1) ns).Keeps allowed chunk fun ss => ∀ s ∈ ss, s.Placed allowed chunk := by
  unfold loopBody
  refine .bind (expect_keeps _) fun _ _ => inLoop_keeps (inBlock_keeps ?_)
  exact .bind (declare_keeps _) fun _ _ => all.block

theorem namedFunction_keeps (line : Nat) (here : allowed chunk line) :
    (namedFunction (fuel + 1) line).Keeps allowed chunk (Statement.Placed allowed chunk) := by
  unfold namedFunction
  refine .bind name_keeps fun n _ => .bind (resolve_keeps n) fun start first =>
    .bind (all.path start first) fun p target => ?_
  refine .bind (all.function _ line here) fun f placed => .bind (checkAssignable_keeps _) fun _ _ =>
    .pure ?_
  exact .assign (List.forall_mem_singleton.2 target)
    (List.forall_mem_singleton.2 (.closure placed)) here

theorem path_keeps (e : Expr) (placed : e.Placed allowed chunk) :
    (path (fuel + 1) e).Keeps allowed chunk fun p => p.1.Placed allowed chunk := by
  unfold path
  refine .bind (accept_keeps _) fun dotted _ => .ite (fun _ => ?_) fun _ => ?_
  · refine .bind name_keeps fun key _ => .bind lastLine_keeps fun last there => ?_
    exact all.path _ (.index placed (.const _) there)
  · refine .bind (accept_keeps _) fun method _ => .ite (fun _ => ?_) fun _ => .pure placed
    refine .bind name_keeps fun key _ => .bind lastLine_keeps fun last there => .pure ?_
    exact .index placed (.const _) there

theorem exprStatement_keeps : (exprStatement (fuel + 1)).Keeps allowed chunk
    (Statement.Placed allowed chunk) := by
  unfold exprStatement
  refine .bind all.suffixed fun e placed => .bind (at?_keeps _) fun assigned _ =>
    .bind (at?_keeps _) fun several _ => ?_
  refine .ite (fun _ => all.assignment [e] (List.forall_mem_singleton.2 placed)) fun _ => ?_
  split
  · exact .pure (.call placed)
  · exact .pure (.call placed)
  · exact refuse_keeps _

theorem assignment_keeps (targets : List Expr) (places : ∀ e ∈ targets, e.Placed allowed chunk) :
    (assignment (fuel + 1) targets).Keeps allowed chunk (Statement.Placed allowed chunk) := by
  unfold assignment
  -- What follows the targets.
  have rest : Read.Keeps allowed chunk (Statement.Placed allowed chunk) (do
      checkAssignable (targets.headD (.const .nil))
      if ← accept "," then assignment fuel ((← suffixed fuel) :: targets)
      else
        expect "="
        let values ← exprs fuel
        return .assign targets.reverse values (← lastLine)) := by
    refine .bind (checkAssignable_keeps _) fun _ _ => .bind (accept_keeps _) fun more _ =>
      .ite (fun _ => ?_) fun _ => ?_
    · exact .bind all.suffixed fun e placed =>
        all.assignment _ (List.forall_mem_cons.2 ⟨placed, places⟩)
    · refine .bind (expect_keeps _) fun _ _ => .bind all.exprs fun values fit =>
        .bind lastLine_keeps fun last there => ?_
      exact .pure (.assign (fun e mem => places e (List.mem_reverse.1 mem)) fit there)
  split
  · exact rest
  · exact rest
  · exact .bind (refuse_keeps (P := fun _ => True) _) fun _ _ => rest

/-- One step deeper. -/
theorem allKeep_succ : AllKeep allowed chunk (fuel + 1) where
  -- Each parser keeps the lines of what it reads if those one level below do.
  expr := by rw [expr]; exact all.operand 0
  operand := operand_keeps all
  operators := operators_keeps all
  simple := simple_keeps all
  primary := primary_keeps all
  suffixed := by rw [suffixed]; exact .bind all.primary all.suffixes
  suffixes := suffixes_keeps all
  arguments := arguments_keeps all
  exprs := exprs_keeps all
  table := table_keeps all
  fields := fields_keeps all
  field := field_keeps all
  function := function_keeps all
  statements := statements_keeps all
  block := by rw [block]; exact inBlock_keeps all.statements
  statement := statement_keeps all
  label := label_keeps all
  idle := idle_keeps all
  conditional := conditional_keeps all
  arms := arms_keeps all
  counting := counting_keeps all
  loopBody := loopBody_keeps all
  namedFunction := namedFunction_keeps all
  path := path_keeps all
  exprStatement := exprStatement_keeps all
  assignment := assignment_keeps all

end Fuel

theorem allKeep (fuel : Nat) : AllKeep allowed chunk fuel := by
  induction fuel with
  | zero => exact allKeep_zero
  | succ fuel ih => exact allKeep_succ ih

/-! ## Programs -/

theorem program_keeps (fuel : Nat) :
    (program fuel).Keeps allowed chunk (Function.Placed allowed chunk) := by
  refine .bind .get fun s sound => .bind current_keeps fun l _ => ?_
  split
  case' h_1 => refine .bind (refuse_keeps (P := fun _ => True) _) fun _ _ => ?_
  -- Whatever the first lexeme is, what follows is the body.
  all_goals
    refine inFunction_keeps _ _ (.bind (allKeep fuel).statements fun body fit =>
      .bind current_keeps fun l _ => ?_)
    have whole : Function.Placed allowed chunk (.mk 0 true body ⟨s.chunk, 0⟩) := by
      rw [sound.same]
      exact .mk fit (.inl rfl)
    split
    · exact .pure whole
    · exact .bind (refuse_keeps (P := fun _ => True) _) fun _ _ => .pure whole

end Parser

/-- **The lines of a program are those of its lexemes.** Where the lexemes of a text, and its first
line, are on lines that are allowed, so is everything in the program that it is read as, and so is
the complaint if it is refused. -/
theorem parse_placed {allowed : String → Nat → Prop} {chunk source : String}
    (lexemes : ∀ l ∈ Lexeme.scan source, allowed chunk l.line) (first : allowed chunk 1) :
    (∀ f, parse chunk source = .ok f → f.Placed allowed chunk)
      ∧ ∀ p, parse chunk source = .error p → p.Placed allowed chunk := by
  -- The first line is that of the chunk itself, which is the first function.
  have came := Parser.program_keeps (20 * (Lexeme.scan source).length + 200)
    { rest := Lexeme.scan source, vars := [⟨"_ENV", .plain, 0⟩],
      chunk := chunk } ⟨rfl, lexemes, first, first⟩
  unfold parse
  simp only
  revert came
  cases Parser.program (20 * (Lexeme.scan source).length + 200)
    { rest := Lexeme.scan source, vars := [⟨"_ENV", .plain, 0⟩], chunk := chunk } with
  | ok p =>
    intro came
    refine ⟨?_, nofun⟩
    intro f read
    obtain rfl := Except.ok.inj read
    exact came.1
  | error p =>
    intro came
    refine ⟨nofun, ?_⟩
    intro q refused
    obtain rfl := Except.error.inj refused
    exact came

end Conveyor.Lua
