/-
Steps of the machine.

A step looks at what the machine is doing: it takes an expression or a statement apart, or hands
values to what waits for them. Expressions that are no more than a constant or a variable are not
waited for.
-/
import Conveyor.Lua.Machine

set_option autoImplicit false

namespace Conveyor.Lua

namespace State

/-- The state in which the program has failed at a line. -/
def failing (h : Heap) (pending : List Pending) (depth inner line : Nat) (message : String) :
    State :=
  ⟨h, failAt h pending line message, pending, depth, inner⟩

end State

/-! ## Tables -/

/-- Why a key cannot be set. -/
def keyProblem (k : Value) : String := "table index is " ++ (if k.isNil then "nil" else "NaN")

/-- The positional entries of a table constructor, and the others put into a table. -/
def constructorEntries : (fields : List Field) → (vs : List Value) → Table → List Value →
    Except (Nat × String) (Table × List Value)
  | [], vs, t, items => .ok (t, items.reverse ++ vs)
  | [.item _], vs, t, items => .ok (t, items.reverse ++ vs)
  | .item _ :: fields, v :: vs, t, items => constructorEntries fields vs t (v :: items)
  | .item _ :: fields, [], t, items => constructorEntries fields [] t (.nil :: items)
  | .pair _ _ line :: fields, vs, t, items =>
    let k := first vs
    match k.key? with
    | some key =>
      let rest := vs.drop 1
      constructorEntries fields (rest.drop 1) (t.set key (first rest)) items
    | none => .error (line, keyProblem k)

/-- Sets elements from a position on. -/
def setElements : List Value → (n : Nat) → Table → Table
  | [], _, t => t
  | v :: vs, n, t => setElements vs (n + 1) (t.set (.int (Int64.ofNat n)) v)

/-- The table of a constructor with the values of its expressions. -/
def construct (fields : List Field) (vs : List Value) : Except (Nat × String) Table :=
  let pairs := fields.countP fun f =>
    match f with
    | .pair .. => true
    | .item _ => false
  match constructorEntries fields vs (Table.withRoom (fields.length - pairs) pairs) [] with
  | .ok (t, items) =>
    let items := if pairs = fields.length then [] else items
    .ok (setElements items 1 (t.growRow items.length))
  | .error e => .error e

/-- The expressions of a table constructor, in order. -/
def fieldExprs : List Field → List Expr
  | [] => []
  | .item e :: fields => e :: fieldExprs fields
  | .pair k v _ :: fields => k :: v :: fieldExprs fields

/-! ## Assignments -/

/-- The expressions that find the places of targets. -/
def targetExprs : List Expr → List Expr
  | [] => []
  | .index object key _ _ :: rest => object :: key :: targetExprs rest
  | _ :: rest => targetExprs rest

/-- A place that is assigned to. -/
inductive Spot where
  | cell (ref : Nat)
  | entry (object key : Value) (objectExpr : Expr)

/-- The places of targets, given the values found for them; what is left of the values comes
back. -/
def places (vars : List Nat) : List Expr → List Value → List Spot × List Value
  | [], vs => ([], vs)
  | .index object _ _ _ :: rest, vs =>
    let (ps, left) := places vars rest (vs.drop 2)
    (.entry (first vs) (first (vs.drop 1)) object :: ps, left)
  | .var i _ _ :: rest, vs =>
    let (ps, left) := places vars rest vs
    (.cell (vars.getD i 0) :: ps, left)
  | _ :: rest, vs => places vars rest vs

/-- Assigns values to places. -/
def assignAll (h : Heap) : List (Spot × Value) → Except (Heap × String) Heap
  | [] => .ok h
  | (.cell ref, v) :: rest => assignAll (h.setCell ref v) rest
  | (.entry object key e, v) :: rest =>
    match object with
    | .table ref =>
      match key.key? with
      | some k => assignAll (h.updateTable ref fun t => t.set k v) rest
      | none => .error (h, keyProblem key)
    | o =>
      .error (h, "attempt to index a " ++ o.typeName ++ " value" ++
        (e.origin?.map Origin.text).getD "")

/-! ## Loops over numbers -/

/-- A loop over numbers before its first round. -/
inductive Range where
  | empty
  | ints (left : Nat) (start step : Int64)
  | floats (start limit step : Float)

/-- The complaint about a loop bound that is no number. -/
def boundProblem (what : String) (v : Value) : String :=
  "bad 'for' " ++ what ++ " (number expected, got " ++ v.typeName ++ ")"

/-- A loop limit as an integer: a float is rounded towards the start, and one out of range is
clipped. -/
def intLimit (limit : Value) (step : Int64) : Except String (Option Int) :=
  match limit.number? with
  | some (.int i) => .ok (some i.toInt)
  | some (.float x) =>
    match Decimal.Binary.ofFloat? x with
    | some b => .ok (some (if step < 0 then b.ceil else b.floor))
    | none =>
      if x > 0 then .ok (if step < 0 then none else some (2 ^ (63 : Nat)))
      else if x < 0 then .ok (if 0 < step then none else some (-2 ^ (63 : Nat) - 1))
      else .ok none
  | _ => .error (boundProblem "limit" limit)

/-- The rounds of a loop over numbers. -/
def rangeOf (start limit step : Value) : Except String Range :=
  match start, step with
  | .int i, .int s =>
    if s == 0 then .error "'for' step is zero"
    else
      match intLimit limit s with
      | .error e => .error e
      | .ok none => .ok .empty
      | .ok (some l) =>
        let l := max (-2 ^ (63 : Nat)) (min l (2 ^ (63 : Nat) - 1))
        let distance := if 0 < s then l - i.toInt else i.toInt - l
        if distance < 0 then .ok .empty else .ok (.ints (distance / s.toInt.natAbs).toNat i s)
  | start, step =>
    match limit.number?.bind Value.float?, step.number?.bind Value.float?,
        start.number?.bind Value.float? with
    | none, _, _ => .error (boundProblem "limit" limit)
    | _, none, _ => .error (boundProblem "step" step)
    | _, _, none => .error (boundProblem "initial value" start)
    | some l, some s, some x =>
      if s == 0 then .error "'for' step is zero"
      else if (if s > 0 then l < x else x < l) || l.isNaN || x.isNaN then .ok .empty
      else .ok (.floats x l s)

/-! ## Jumps -/

/-- What follows a label in a block, and how many variables are visible at it. -/
def afterLabel? (name : String) : List Statement → Option (List Statement × Nat)
  | [] => none
  | .label n depth :: rest => if n == name then some (rest, depth) else afterLabel? name rest
  | _ :: rest => afterLabel? name rest

/-- The variables that were visible when there were so many. -/
def Scope.at (s : Scope) (depth : Nat) : Scope :=
  { s with vars := s.vars.drop (s.vars.length - depth) }

/-- Goes to a label of a block that is not yet left. -/
def jump (name : String) : List Pending → Control × List Pending
  | [] => (.deliver [], [])
  | .sequence rest whole scope :: pending =>
    match afterLabel? name whole with
    | some (after, depth) => (.exec after whole (scope.at depth), pending)
    | none =>
      let _ := rest
      jump name pending
  | _ :: pending => jump name pending

/-- Leaves the innermost loop. -/
def leaveLoop : List Pending → List Pending
  | [] => []
  | .whileBody .. :: rest | .untilBody .. :: rest | .ints .. :: rest | .floats .. :: rest
  | .eachBody .. :: rest => rest
  | _ :: rest => leaveLoop rest

/-! ## Using values -/

/-- The value of an expression that is a constant or a variable. -/
def atom? (h : Heap) (vars : List Nat) : Expr → Option Value
  | .const v => some v
  | .var i _ _ => some (h.cell (vars.getD i 0))
  | _ => none

/-- A call whose only values are the results of the function around it. -/
def tailCall? : List Expr → Option Expr
  | [.call callee args line] => some (.call callee args line)
  | [.method object name args nameLine line] => some (.method object name args nameLine line)
  | _ => none

/-- The most calls of functions outside the program that a step may make. -/
def directCalls : Nat := 1000000

/-- The value of a unary operator. -/
def operateUnary (op : UnaryOp) (h : Heap) (v : Value) : Except OperandError Value :=
  match op with
  | .not => .ok (.bool !v.truthy)
  | .neg => negate v
  | .bnot => complement v
  | .len =>
    match v with
    | .str s => .ok (.int (Int64.ofNat s.size))
    | .table ref => .ok (.int (Int64.ofNat (h.table ref).length))
    | _ => .error .length

/-- Looks a key up and delivers the value, or calls the handler that is asked for it. -/
def deliverLookup (host : Host) (h : Heap) (pending : List Pending) (depth inner : Nat)
    (objectExpr : Expr) (object key : Value) (line : Nat) : State :=
  match h.lookup maxChain object key with
  | .found v => ⟨h, .deliver [v], pending, depth, inner⟩
  | .ask f object key =>
    call host directCalls h (.single :: pending) depth inner f [object, key]
      ⟨line, some ⟨"metamethod", "index"⟩⟩ false
  | .notIndexable o =>
    .failing h pending depth inner line
      ("attempt to index a " ++ o.typeName ++ " value"
        ++ (objectExpr.origin?.map Origin.text).getD "")

/-- Starts a round of a loop with its variables. -/
def startRound (h : Heap) (pending : List Pending) (depth inner : Nat) (vs : List Value)
    (body : List Statement) (scope : Scope) : State :=
  let (h, vars) := h.newCells scope.vars vs
  ⟨h, .exec body body { scope with vars := vars }, pending, depth, inner⟩

mutual

/-- Finds the values of expressions, `done` being those found so far, last one first, and uses
them. -/
def gather (host : Host) (h : Heap) (pending : List Pending) (depth inner : Nat) (scope : Scope)
    (use : Use) : (es : List Expr) → (done : List Value) → State
  | [], done => apply host h pending depth inner use done.reverse
  | e :: es, done =>
    match atom? h scope.vars e with
    | some v => gather host h pending depth inner scope use es (v :: done)
    | none => ⟨h, .eval e scope, .values es done scope use :: pending, depth, inner⟩

/-- Uses values. -/
def apply (host : Host) (h : Heap) (pending : List Pending) (depth inner : Nat) (use : Use)
    (vs : List Value) : State :=
  match use with
  | .call line origin tail =>
    call host directCalls h pending depth inner (first vs) (vs.drop 1) ⟨line, origin⟩ tail
  | .index object line =>
    deliverLookup host h pending depth inner object (first vs) (first (vs.drop 1)) line
  | .binary op a b line =>
    let x := first vs
    let y := first (vs.drop 1)
    match operate op x y with
    | .ok v => ⟨h, .deliver [v], pending, depth, inner⟩
    | .error e =>
      .failing h pending depth inner line (e.message x y (a.origin?, b.origin?))
  | .unary op a line =>
    match operateUnary op h (first vs) with
    | .ok v => ⟨h, .deliver [v], pending, depth, inner⟩
    | .error e => .failing h pending depth inner line (e.message (first vs) .nil (a.origin?, none))
  | .both b scope =>
    if (first vs).truthy then ⟨h, .eval b scope, .single :: pending, depth, inner⟩
    else ⟨h, .deliver [first vs], pending, depth, inner⟩
  | .either b scope =>
    if (first vs).truthy then ⟨h, .deliver [first vs], pending, depth, inner⟩
    else ⟨h, .eval b scope, .single :: pending, depth, inner⟩
  | .table fields =>
    match construct fields vs with
    | .ok t =>
      let (h, ref) := h.newTable t
      ⟨h, .deliver [.table ref], pending, depth, inner⟩
    | .error (line, message) => .failing h pending depth inner line message
  | .self object name args nameLine line tail scope =>
    deliverLookup host h (.method (first vs) name args line tail scope :: pending) depth inner
      object (first vs) (.text name) nameLine
  | .ret =>
    let (_, rest) := leaveActivation pending
    ⟨h, .deliver vs, rest, depth - 1, inner⟩
  | .discard rest whole scope => ⟨h, .exec rest whole scope, pending, depth, inner⟩
  | .locals count closing line rest whole scope =>
    let vs := adjust count vs
    let unclosed := closing.bind fun (i, name) =>
      if (vs.getD i .nil).truthy then some name else none
    match unclosed with
    | some name =>
      .failing h pending depth inner line ("variable '" ++ name ++ "' got a non-closable value")
    | none =>
      let (h, vars) := h.newCells scope.vars vs
      ⟨h, .exec rest whole { scope with vars := vars }, pending, depth, inner⟩
  | .assign targets line rest whole scope =>
    let (ps, values) := places scope.vars targets vs
    match assignAll h (ps.zip (adjust ps.length values)).reverse with
    | .ok h => ⟨h, .exec rest whole scope, pending, depth, inner⟩
    | .error (h, message) => .failing h pending depth inner line message
  | .branch body arms otherwise scope =>
    if (first vs).truthy then ⟨h, .exec body body scope, pending, depth, inner⟩
    else
      match arms with
      | [] => ⟨h, .exec otherwise otherwise scope, pending, depth, inner⟩
      | (c, body) :: arms =>
        ⟨h, .eval c scope, .values [] [] scope (.branch body arms otherwise scope) :: pending,
          depth, inner⟩
  | .loopWhile c body scope =>
    if (first vs).truthy then
      ⟨h, .exec body body scope, .whileBody c body scope :: pending, depth, inner⟩
    else ⟨h, .deliver [], pending, depth, inner⟩
  | .endUnless =>
    match pending with
    | .untilBody body scope :: rest =>
      if (first vs).truthy then ⟨h, .deliver [], rest, depth, inner⟩
      else ⟨h, .exec body body scope, .untilBody body scope :: rest, depth, inner⟩
    | rest => ⟨h, .deliver [], rest, depth, inner⟩
  | .loopNumbers body line scope =>
    match rangeOf (first vs) (first (vs.drop 1)) (first (vs.drop 2)) with
    | .error message => .failing h pending depth inner line message
    | .ok .empty => ⟨h, .deliver [], pending, depth, inner⟩
    | .ok (.ints left i step) =>
      startRound h (.ints left i step body scope :: pending) depth inner [.int i] body scope
    | .ok (.floats x limit step) =>
      startRound h (.floats x limit step body scope :: pending) depth inner [.float x] body scope
  | .loopValues count body line scope =>
    let f := first vs
    let s := first (vs.drop 1)
    let control := first (vs.drop 2)
    if (first (vs.drop 3)).truthy then
      .failing h pending depth inner line "variable '(for state)' got a non-closable value"
    else
      call host directCalls h (.produced f s count body line scope :: pending) depth inner f
        [s, control] ⟨line, some ⟨"for iterator", "for iterator"⟩⟩ false

end

/-! ## Evaluating and executing -/

/-- Starts evaluating an expression. -/
def evaluate (host : Host) (h : Heap) (pending : List Pending) (depth inner : Nat) (scope : Scope)
    (tail : Bool) (e : Expr) : State :=
  match e with
  | .const v => ⟨h, .deliver [v], pending, depth, inner⟩
  | .vararg => ⟨h, .deliver scope.more, pending, depth, inner⟩
  | .var i _ _ => ⟨h, .deliver [h.cell (scope.vars.getD i 0)], pending, depth, inner⟩
  | .index object key _ line =>
    gather host h pending depth inner scope (.index object line) [object, key] []
  | .call callee args line =>
    gather host h pending depth inner scope (.call line callee.origin? tail) (callee :: args) []
  | .method object name args nameLine line =>
    gather host h pending depth inner scope (.self object name args nameLine line tail scope)
      [object] []
  | .closure f =>
    let (h, ref) := h.newFunction (.closure f scope.vars)
    ⟨h, .deliver [.function ref], pending, depth, inner⟩
  | .binary op a b line => gather host h pending depth inner scope (.binary op a b line) [a, b] []
  | .unary op a line => gather host h pending depth inner scope (.unary op a line) [a] []
  | .both a b => gather host h pending depth inner scope (.both b scope) [a] []
  | .either a b => gather host h pending depth inner scope (.either b scope) [a] []
  | .table fields => gather host h pending depth inner scope (.table fields) (fieldExprs fields) []
  | .single e => ⟨h, .eval e scope, .single :: pending, depth, inner⟩

/-- Starts executing the first of some statements of a block. -/
def execute (host : Host) (h : Heap) (pending : List Pending) (depth inner : Nat)
    (whole : List Statement) (scope : Scope) : List Statement → State
  | [] => ⟨h, .deliver [], pending, depth, inner⟩
  | s :: rest =>
    let after := Pending.sequence rest whole scope :: pending
    match s with
    | .locals count closing values line =>
      gather host h pending depth inner scope (.locals count closing line rest whole scope)
        values []
    | .localFunction f =>
      let (h, vars) := h.newCells scope.vars [.nil]
      let (h, ref) := h.newFunction (.closure f vars)
      let h := h.setCell (vars.headD 0) (.function ref)
      ⟨h, .exec rest whole { scope with vars := vars }, pending, depth, inner⟩
    | .assign targets values line =>
      gather host h pending depth inner scope (.assign targets line rest whole scope)
        (targetExprs targets ++ values) []
    | .call e =>
      ⟨h, .eval e scope, .values [] [] scope (.discard rest whole scope) :: pending, depth, inner⟩
    | .block body => ⟨h, .exec body body scope, after, depth, inner⟩
    | .loopWhile c body _ =>
      gather host h after depth inner scope (.loopWhile c body scope) [c] []
    | .loopUntil body _ =>
      ⟨h, .exec body body scope, .untilBody body scope :: after, depth, inner⟩
    | .endUnless c => gather host h pending depth inner scope .endUnless [c] []
    | .branch arms otherwise =>
      match arms with
      | [] => ⟨h, .exec otherwise otherwise scope, after, depth, inner⟩
      | (c, body) :: arms =>
        gather host h after depth inner scope (.branch body arms otherwise scope) [c] []
    | .loopNumbers start limit step body line =>
      gather host h after depth inner scope (.loopNumbers body line scope)
        [start, limit, step] []
    | .loopValues count source body line =>
      gather host h after depth inner scope (.loopValues count body line scope) source []
    | .ret values =>
      match tailCall? values with
      | some e => evaluate host h pending depth inner scope true e
      | none => gather host h pending depth inner scope .ret values []
    | .breakLoop => ⟨h, .deliver [], leaveLoop pending, depth, inner⟩
    | .goto name =>
      match afterLabel? name whole with
      | some (next, visible) => ⟨h, .exec next whole (scope.at visible), pending, depth, inner⟩
      | none =>
        let (control, pending) := jump name pending
        ⟨h, control, pending, depth, inner⟩
    | .label .. => ⟨h, .exec rest whole scope, pending, depth, inner⟩

/-- Hands values to what waits for them. -/
def hand (host : Host) (h : Heap) (depth inner : Nat) (vs : List Value) : List Pending → State
  | [] => ⟨h, .finished vs, [], depth, inner⟩
  | p :: pending =>
    match p with
    | .values [] done _ use => apply host h pending depth inner use (done.reverse ++ vs)
    | .values es done scope use =>
      gather host h pending depth inner scope use es (first vs :: done)
    | .single => ⟨h, .deliver [first vs], pending, depth, inner⟩
    | .method object name args line tail scope =>
      gather host h pending depth inner scope (.call line (some ⟨"method", name⟩) tail) args
        [object, first vs]
    | .sequence rest whole scope => ⟨h, .exec rest whole scope, pending, depth, inner⟩
    | .whileBody c body scope =>
      gather host h pending depth inner scope (.loopWhile c body scope) [c] []
    | .untilBody body scope =>
      ⟨h, .exec body body scope, .untilBody body scope :: pending, depth, inner⟩
    | .ints left i step body scope =>
      match left with
      | 0 => ⟨h, .deliver [], pending, depth, inner⟩
      | left + 1 =>
        let i := i + step
        startRound h (.ints left i step body scope :: pending) depth inner [.int i] body scope
    | .floats x limit step body scope =>
      let x := x + step
      if (if step > 0 then x ≤ limit else limit ≤ x) then
        startRound h (.floats x limit step body scope :: pending) depth inner [.float x] body scope
      else ⟨h, .deliver [], pending, depth, inner⟩
    | .produced f s count body line scope =>
      let control := first vs
      if control.isNil then ⟨h, .deliver [], pending, depth, inner⟩
      else
        startRound h (.eachBody f s control count body line scope :: pending) depth inner
          (adjust count vs) body scope
    | .eachBody f s control count body line scope =>
      call host directCalls h (.produced f s count body line scope :: pending) depth inner f
        [s, control] ⟨line, some ⟨"for iterator", "for iterator"⟩⟩ false
    | .activation .. => ⟨h, .deliver vs, pending, depth - 1, inner⟩
    | .native name site after =>
      perform host directCalls pending depth (inner - 1) name site (after h vs)
    | .returning =>
      let (_, rest) := leaveActivation pending
      ⟨h, .deliver vs, rest, depth - 1, inner⟩

/-- One step. -/
def step (host : Host) (s : State) : State :=
  match s with
  | ⟨h, control, pending, depth, inner⟩ =>
    match control with
    | .eval e scope => evaluate host h pending depth inner scope false e
    | .exec rest whole scope => execute host h pending depth inner whole scope rest
    | .deliver vs => hand host h depth inner vs pending
    | .finished vs => ⟨h, .finished vs, pending, depth, inner⟩
    | .failed f => ⟨h, .failed f, pending, depth, inner⟩

/-! ## Running -/

/-- What a program comes to. -/
inductive Outcome where
  | finished (h : Heap) (results : List Value)
  | failed (h : Heap) (f : Failure)
  /-- The steps were used up at a line. -/
  | exhausted (h : Heap) (line : Nat)

/-- The line an expression is on, if it tells one. -/
def Expr.line? : Expr → Option Nat
  | .index _ _ _ line | .call _ _ line | .method _ _ _ _ line | .binary _ _ _ line
  | .unary _ _ line => some line
  | _ => none

/-- The line of the innermost statement or expression that tells one. -/
def State.line (s : State) : Nat :=
  let ofPending : Pending → Option Nat
    | .values _ _ _ use =>
      match use with
      | .call line .. | .index _ line | .binary _ _ _ line | .unary _ _ line
      | .locals _ _ line .. | .assign _ line .. | .loopNumbers _ line _
      | .loopValues _ _ line _ => some line
      | _ => none
    | .method _ _ _ line _ _ | .produced _ _ _ _ line _ | .eachBody _ _ _ _ _ line _ => some line
    | _ => none
  let here := match s.control with
    | .eval e _ => e.line?
    | _ => none
  (here <|> s.pending.findSome? ofPending).getD 1

/-- Runs the machine for at most so many steps. -/
def State.run (host : Host) : (fuel : Nat) → State → Outcome
  | 0, s =>
    match s.control with
    | .finished vs => .finished s.heap vs
    | .failed f => .failed s.heap f
    | _ => .exhausted s.heap s.line
  | fuel + 1, s =>
    match s.control with
    | .finished vs => .finished s.heap vs
    | .failed f => .failed s.heap f
    | _ => State.run host fuel (step host s)

/-- Runs a program in a store for at most so many steps. -/
def Function.run (f : Function) (host : Host) (h : Heap) (fuel : Nat) : Outcome :=
  let (h, globals) := h.newCell (.table h.globals)
  let (h, ref) := h.newFunction (.closure f [globals])
  (call host directCalls h [] 0 0 (.function ref) [] ⟨0, none⟩ false).run host fuel

end Conveyor.Lua
