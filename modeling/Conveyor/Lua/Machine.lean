/-
The machine that runs programs.

The machine keeps what it is doing now and a list of what is to be done afterwards, innermost first,
so a step never recurses and a program may nest as deeply as the store allows. Calls, loops and
blocks are entries of that list. Returning, leaving a loop and jumping to a label remove entries up
to the one they aim at; a call in tail position removes the activation of its caller first.
-/
import Conveyor.Lua.Library

set_option autoImplicit false

namespace Conveyor.Lua

/-! ## What is to be done -/

/-- What a piece of program sees: its variables, innermost first, and the surplus arguments of its
function. -/
structure Scope where
  vars : List Nat
  more : List Value

/-- Where a call was made from (line zero: not from a program), and what the callee was called
by. -/
structure Site where
  line : Nat
  origin : Option Origin

/-- What is done with the values of some expressions. -/
inductive Use where
  | call (line : Nat) (origin : Option Origin) (tail : Bool)
  | index (object : Expr) (line : Nat)
  | binary (op : BinaryOp) (a b : Expr) (line : Nat)
  | unary (op : UnaryOp) (a : Expr) (line : Nat)
  | both (b : Expr) (scope : Scope)
  | either (b : Expr) (scope : Scope)
  | table (fields : List Field)
  | self (object : Expr) (name : String) (args : List Expr) (nameLine line : Nat) (tail : Bool)
    (scope : Scope)
  | ret
  | discard (rest whole : List Statement) (scope : Scope)
  | locals (count : Nat) (closing : Option (Nat × String)) (line : Nat)
    (rest whole : List Statement) (scope : Scope)
  | assign (targets : List Expr) (line : Nat) (rest whole : List Statement) (scope : Scope)
  | branch (body : List Statement) (arms : List (Expr × List Statement))
    (otherwise : List Statement) (scope : Scope)
  | loopWhile (condition : Expr) (body : List Statement) (scope : Scope)
  | endUnless
  | loopNumbers (body : List Statement) (line : Nat) (scope : Scope)
  | loopValues (count : Nat) (body : List Statement) (line : Nat) (scope : Scope)

/-- Something that waits for values, or for statements to end. -/
inductive Pending where
  /-- Waits for the value of an expression; the last expression may have any number of values. -/
  | values (todo : List Expr) (done : List Value) (scope : Scope) (use : Use)
  /-- Takes the first of the values. -/
  | single
  /-- Waits for the method of an object. -/
  | method (object : Value) (name : String) (args : List Expr) (line : Nat) (tail : Bool)
    (scope : Scope)
  | sequence (rest whole : List Statement) (scope : Scope)
  | whileBody (condition : Expr) (body : List Statement) (scope : Scope)
  | untilBody (body : List Statement) (scope : Scope)
  | ints (left : Nat) (i step : Int64) (body : List Statement) (scope : Scope)
  | floats (x limit step : Float) (body : List Statement) (scope : Scope)
  /-- Waits for what an iterator produces. -/
  | produced (f s : Value) (count : Nat) (body : List Statement) (line : Nat) (scope : Scope)
  | eachBody (f s control : Value) (count : Nat) (body : List Statement) (line : Nat)
    (scope : Scope)
  /-- The end of a function of the program. -/
  | activation (callee : Nat) (place : Place) (site : Site) (tail : Bool)
  /-- A function that is not of the program waits for one it called. -/
  | native (name : Option String) (site : Site) (after : Heap → List Value → Plan)
  /-- The values are the results of the function around. -/
  | returning

/-- A failed program: what went wrong, where it was, outermost last, and whether a function of the
host said so. -/
structure Failure where
  text : String
  trace : List String
  host : Bool

/-- What the machine is doing. -/
inductive Control where
  | eval (e : Expr) (scope : Scope)
  | exec (rest whole : List Statement) (scope : Scope)
  | deliver (vs : List Value)
  | finished (vs : List Value)
  | failed (f : Failure)

/-- The state of the machine. -/
structure State where
  heap : Heap
  control : Control
  pending : List Pending
  /-- How many activations are pending, and how many of them were called by functions that are not
  of the program. -/
  depth : Nat := 0
  inner : Nat := 0

/-- Functions of the host, by name. -/
abbrev Host := String → Option (List Json → Except String Json)

/-! ## Where the machine is -/

/-- A function that has not ended, at a line. -/
inductive Level where
  | program (callee : Nat) (place : Place) (site : Site) (tail : Bool) (line : Nat)
  | native (name : Option String) (site : Site)

/-- The functions that have not ended, innermost first; the innermost one is at a line. -/
def levels (line : Nat) : List Pending → List Level
  | [] => []
  | .activation callee place site tail :: rest =>
    .program callee place site tail line :: levels site.line rest
  | .native name site _ :: rest => .native name site :: levels site.line rest
  | _ :: rest => levels line rest

/-- The position of a level in front of a message. -/
def Level.position : Level → String
  | .program _ place _ _ line =>
    if line = 0 then "" else place.chunk ++ ":" ++ Decimal.natText line ++ ": "
  | .native .. => ""

/-- The name of a global function. -/
def globalName? (h : Heap) (callee : Nat) : Option String :=
  (h.table h.globals).entries.findSome? fun p =>
    match p with
    | (.str s, .function f) => if f == callee then String.fromUTF8? s else none
    | _ => none

/-- The kind and name of a place in a trace. -/
def Origin.traced (o : Origin) : String := o.kind ++ " '" ++ o.name ++ "'"

/-- A level as a line of a trace. -/
def Level.text (h : Heap) : Level → String
  | .native name site =>
    match name, site.origin with
    | some n, _ => "[C]: in function '" ++ n ++ "'"
    | none, some o => "[C]: in " ++ o.traced
    | none, none => "[C]: in ?"
  | .program callee place site tail line =>
    let called :=
      match globalName? h callee, if tail then none else site.origin with
      | some name, _ => "function '" ++ name ++ "'"
      | none, some o => o.traced
      | none, none =>
        if place.line = 0 then "main chunk"
        else "function <" ++ place.chunk ++ ":" ++ Decimal.natText place.line ++ ">"
    place.chunk ++ ":" ++ Decimal.natText line ++ ": in " ++ called ++
      (if tail then "\n\t(...tail calls...)" else "")

/-- How many levels a trace shows at its two ends when it does not show all. -/
def shownLevels : Nat × Nat := (10, 11)

/-- A trace from its innermost level on; in a long one the middle is left out. -/
def traceText (h : Heap) (ls : List Level) : List String :=
  let all := ls.length
  let shown := shownLevels.1 + shownLevels.2
  if all ≤ shown + 1 then ls.map (Level.text h)
  else
    (ls.take shownLevels.1).map (Level.text h) ++
      ["...\t(skipping " ++ Decimal.natText (all - shown) ++ " levels)"] ++
      (ls.drop (all - shownLevels.2)).map (Level.text h)

/-- The level of the handler that writes traces. -/
def handlerLevel : Level := .native none ⟨0, none⟩

/-- A failure at a line of the program. -/
def failAt (h : Heap) (pending : List Pending) (line : Nat) (message : String) : Control :=
  let ls := levels line pending
  let position := (ls.head?.map Level.position).getD ""
  .failed ⟨position ++ message, traceText h (handlerLevel :: ls), false⟩

/-- A failure of a function that is not of the program, called from a site. -/
def failNative (h : Heap) (pending : List Pending) (name : Option String) (site : Site)
    (fault : Fault) : Control :=
  let ls := levels site.line pending
  let trace := traceText h (handlerLevel :: .native name site :: ls)
  let position (level : Nat) : String := (ls[level - 1]?.map Level.position).getD ""
  let failed (text : String) : Control := .failed ⟨text, trace, false⟩
  match fault with
  | .argument i problem =>
    let called := (site.origin.map Origin.name).getD (name.getD "?")
    let isMethod := (site.origin.map fun o => o.kind == "method").getD false
    if isMethod && i = 1 then
      failed (position 1 ++ "calling '" ++ called ++ "' on bad self (" ++ problem ++ ")")
    else
      failed (position 1 ++ "bad argument #" ++ Decimal.natText (if isMethod then i - 1 else i) ++
        " to '" ++ called ++ "' (" ++ problem ++ ")")
  | .located message => failed (position 1 ++ message)
  | .plain message => failed message
  | .raised v level =>
    match v with
    | .str s =>
      failed ((if 0 < level then position level.toNat else "") ++ Text.lossy s)
    | v => failed (Text.lossy (textOfValue v))
  | .host message => .failed ⟨message, trace, true⟩

/-! ## Calls -/

/-- The most activations. -/
def maxActivations : Nat := 195000

/-- The most calls from functions that are not of the program, one inside another. -/
def maxInner : Nat := 195

/-- What remains to be done after the innermost activation, and that activation's site. -/
def leaveActivation : List Pending → Site × List Pending
  | [] => (⟨0, none⟩, [])
  | .activation _ _ site _ :: rest => (site, rest)
  | _ :: rest => leaveActivation rest

/-- Values brought to a number by dropping some or adding `nil`. -/
def adjust : (n : Nat) → List Value → List Value
  | 0, _ => []
  | n + 1, [] => .nil :: adjust n []
  | n + 1, v :: vs => v :: adjust n vs

/-- Calls a function of the host. -/
def callHost (host : Host) (h : Heap) (name : String) (args : List Value) : Plan :=
  match host name with
  | none => .fail h (.plain "attempt to call a nil value")
  | some f =>
    match args.mapM (fun v => (extract h v).map fun x => x.getD .null) with
    | .error e => .fail h (.host e.message)
    | .ok xs =>
      match f xs with
      | .ok x =>
        let (h, v) := inject h x
        .finish h [v]
      | .error message => .fail h (.host message)

/-- A function as the machine meets it. -/
inductive Target where
  | closure (f : Function) (env : List Nat)
  | plan (name : Option String) (run : Heap → Plan)
  | notCallable

/-- What calling a value with arguments means. -/
def target (host : Host) (h : Heap) (f : Value) (args : List Value) : Target :=
  match f with
  | .function ref =>
    match h.functions[ref]? with
    | some (.closure f env) => .closure f env
    | some (.builtin b) => .plan b.shownName? fun h => b.plan h args
    | some (.host name) => .plan (some ("__" ++ name)) fun h => callHost host h name args
    | some (.matches s p start last) =>
      .plan none fun h => Library.nextMatch h ref s p start last
    | none => .notCallable
  | _ => .notCallable

/-- Where a function value is, for traces. -/
def calleeOf : Value → Nat
  | .function ref => ref
  | _ => 0

mutual

/-- Calls a value. `fuel` bounds how many functions outside the program call each other directly. -/
def call (host : Host) : (fuel : Nat) → Heap → List Pending → (depth inner : Nat) → (f : Value) →
    List Value → Site → (tail : Bool) → State
  | 0, h, pending, depth, inner, _, _, site, _ =>
    ⟨h, failAt h pending site.line "C stack overflow", pending, depth, inner⟩
  | fuel + 1, h, pending, depth, inner, f, args, site, tail =>
    match target host h f args with
    | .closure (.mk params variadic body place) env =>
      if maxActivations ≤ depth then
        ⟨h, failAt h pending site.line "stack overflow", pending, depth, inner⟩
      else
        let (h, vars) := h.newCells env (adjust params args)
        let scope : Scope := ⟨vars, if variadic then args.drop params else []⟩
        if tail then
          let (site, rest) := leaveActivation pending
          ⟨h, .exec body body scope, .activation (calleeOf f) place site true :: rest, depth, inner⟩
        else
          ⟨h, .exec body body scope, .activation (calleeOf f) place site false :: pending,
            depth + 1, inner⟩
    | .plan name run =>
      let pending := if tail then .returning :: pending else pending
      perform host fuel pending depth inner name site (run h)
    | .notCallable =>
      let message := "attempt to call a " ++ f.typeName ++ " value" ++
        (site.origin.map Origin.text).getD ""
      ⟨h, failAt h pending site.line message, pending, depth, inner⟩

/-- Carries out what a function outside the program does next. -/
def perform (host : Host) : (fuel : Nat) → List Pending → (depth inner : Nat) → Option String →
    Site → Plan → State
  | _, pending, depth, inner, _, _, .finish h vs => ⟨h, .deliver vs, pending, depth, inner⟩
  | _, pending, depth, inner, name, site, .fail h fault =>
    ⟨h, failNative h pending name site fault, pending, depth, inner⟩
  | 0, pending, depth, inner, _, _, .call h _ _ _ =>
    ⟨h, failAt h pending 0 "C stack overflow", pending, depth, inner⟩
  | fuel + 1, pending, depth, inner, name, site, .call h f args after =>
    if maxInner ≤ inner then
      ⟨h, failNative h pending name site (.plain "C stack overflow"), pending, depth, inner⟩
    else
      call host fuel h (.native name site after :: pending) depth (inner + 1) f args ⟨0, none⟩ false

end

end Conveyor.Lua
