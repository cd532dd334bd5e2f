/-
Reading programs.

The reader goes through the lexemes once and never back. It resolves variables to their distance
from where they are used, refuses assignments to constants, and checks that every `goto` can reach
its label without entering the scope of a variable. A refused program is reported with the line the
reader had reached and, where that helps, with the lexeme it had reached.
-/
import Conveyor.Lua.Lexeme
import Conveyor.Lua.Tree

set_option autoImplicit false

namespace Conveyor.Lua

/-- Why a program is refused: what to say, what stood there (empty if that is not said), and the
line. -/
structure Problem where
  message : String
  shown : String
  line : Nat

/-- The text of a problem in a chunk. -/
def Problem.text (p : Problem) (chunk : String) : String :=
  let tail := if p.shown.isEmpty then "" else " near " ++ p.shown
  if p.line = 0 then p.message ++ tail
  else chunk ++ ":" ++ Decimal.natText p.line ++ ": " ++ p.message ++ tail

namespace Parser

/-! ## What the reader keeps -/

/-- A variable in scope, and how many functions enclose it. -/
structure Variable where
  name : String
  kind : VariableKind
  level : Nat

/-- A label or a `goto`: its name, its line, and how many variables are visible there. -/
structure Mark where
  name : String
  line : Nat
  depth : Nat

/-- The state of the reader: the lexemes not yet used, the line of the last used one, the variables
in scope (innermost first), and what is known of the function being read. -/
structure State where
  rest : List Lexeme
  last : Nat := 1
  vars : List Variable := []
  level : Nat := 0
  variadic : Bool := true
  loops : Nat := 0
  labels : List Mark := []
  gotos : List Mark := []
  /-- How many variables the block being read began with. -/
  blockDepth : Nat := 0
  /-- The line the function being read begins on, zero for a program. -/
  place : Nat := 0
  nesting : Nat := 0
  chunk : String

/-- A step of the reader. -/
abbrev Read := StateT State (Except Problem)

/-- The lexeme the reader has reached. -/
def current : Read Lexeme := do return (← get).rest.headD ⟨.finish, Lexeme.finishText, 1⟩

/-- Refuses the program at the lexeme reached. -/
def refuse {α : Type} (message : String) : Read α := do
  let l ← current
  throw ⟨message, l.shown, l.line⟩

/-- Refuses the program for what it means, at the line reached. -/
def reject {α : Type} (message : String) : Read α := do throw ⟨message, "", (← current).line⟩

/-- Goes on to the next lexeme. -/
def advance : Read Unit := do
  let s ← get
  match s.rest with
  | l :: next :: rest =>
    set { s with rest := next :: rest, last := l.line }
    match next.token with
    | .broken message => throw ⟨message, next.shown, next.line⟩
    | _ => pure ()
  | _ => pure ()

/-- Whether a sign or keyword has been reached. -/
def at? (sign : String) : Read Bool := do
  match (← current).token with
  | .sign s => return s == sign
  | _ => return false

/-- Uses a sign or keyword if it has been reached. -/
def accept (sign : String) : Read Bool := do
  if ← at? sign then
    advance
    return true
  else return false

/-- Refuses the program for lack of a sign or keyword. -/
def refuseWithout {α : Type} (sign : String) : Read α := refuse ("'" ++ sign ++ "' expected")

/-- Uses a sign or keyword that must stand here. -/
def expect (sign : String) : Read Unit := do
  unless ← accept sign do refuseWithout sign

/-- Uses the sign that closes what another one opened on a line. -/
def close (sign opening : String) (line : Nat) : Read Unit := do
  unless ← accept sign do
    if (← current).line == line then refuseWithout sign
    else
      refuse ("'" ++ sign ++ "' expected (to close '" ++ opening ++ "' at line " ++
        Decimal.natText line ++ ")")

/-- Uses a name. -/
def name : Read String := do
  match (← current).token with
  | .name s =>
    advance
    return s
  | _ => refuse "<name> expected"

/-- The line of the lexeme reached. -/
def line : Read Nat := do return (← current).line

/-- The line of the last lexeme used. -/
def lastLine : Read Nat := do return (← get).last

/-- Whether a block ends here. -/
def blockEnds (untilToo : Bool) : Read Bool := do
  match (← current).token with
  | .sign s => return s == "else" || s == "elseif" || s == "end" || (untilToo && s == "until")
  | .finish => return true
  | _ => return false

/-! ## Scope -/

/-- The most levels a program may nest. -/
def maxNesting : Nat := 200

/-- Reads something one level deeper. -/
def deeper {α : Type} (r : Read α) : Read α := do
  let s ← get
  if s.nesting + 1 ≥ maxNesting then throw ⟨"C stack overflow", "", 0⟩
  set { s with nesting := s.nesting + 1 }
  let a ← r
  modify fun t => { t with nesting := s.nesting }
  return a

/-- The most local variables of a function. -/
def maxLocals : Nat := 200

/-- Brings variables into scope, the last of the list innermost. -/
def declare (names : List (String × VariableKind)) : Read Unit := do
  let s ← get
  let fresh := names.map fun p => Variable.mk p.1 p.2 s.level
  set { s with vars := fresh.reverse ++ s.vars }

/-- Refuses a function with too many local variables; `more` are about to be declared. -/
def checkLocals (more : Nat) : Read Unit := do
  let s ← get
  let mine := s.vars.countP (·.level == s.level)
  if maxLocals < mine + more then
    let owner :=
      if s.place = 0 then "main function" else "function at line " ++ Decimal.natText s.place
    refuse ("too many local variables (limit is 200) in " ++ owner)
  else pure ()

/-- The variable of a name: its distance and what it is. -/
def find? (vars : List Variable) (n : String) : Option (Nat × Variable) :=
  match vars.findIdx? (·.name == n) with
  | some i => vars[i]?.map fun v => (i, v)
  | none => none

/-- A name as a variable, or as a field of the table of globals. -/
def resolve (n : String) : Read Expr := do
  let s ← get
  match find? s.vars n with
  | some (i, v) => return .var i n (v.level != s.level)
  | none =>
    match find? s.vars "_ENV" with
    | some (i, v) =>
      return .index (.var i "_ENV" (v.level != s.level)) (.const (.text n)) true s.last
    | none => return .const .nil

/-- Refuses an assignment to a constant. -/
def checkAssignable (e : Expr) : Read Unit := do
  match e with
  | .var i n _ =>
    match (← get).vars[i]? with
    | some ⟨_, .plain, _⟩ => pure ()
    | _ => reject ("attempt to assign to const variable '" ++ n ++ "'")
  | _ => pure ()

/-- Reads a block: its variables and labels end with it, and what a `goto` of it did not find may
still stand after it. -/
def inBlock {α : Type} (r : Read α) : Read α := do
  let s ← get
  set { s with gotos := [], blockDepth := s.vars.length }
  let a ← r
  modify fun t =>
    { t with
      vars := s.vars, labels := s.labels, blockDepth := s.blockDepth,
      gotos := s.gotos ++ t.gotos.map fun g => { g with depth := s.vars.length } }
  return a

/-- Reads the body of a loop. -/
def inLoop {α : Type} (r : Read α) : Read α := do
  let loops := (← get).loops
  modify fun s => { s with loops := loops + 1 }
  let a ← r
  modify fun s => { s with loops := loops }
  return a

/-- Refuses a `goto` that found no label, or a `break` outside a loop. -/
def checkGotos : Read Unit := do
  match (← get).gotos with
  | [] => pure ()
  | g :: _ =>
    if g.name == "break" then
      reject ("break outside a loop at line " ++ Decimal.natText g.line)
    else
      reject ("no visible label '" ++ g.name ++ "' for <goto> at line " ++ Decimal.natText g.line)

/-- Reads the body of a function, which has variables, labels and loops of its own. -/
def inFunction {α : Type} (variadic : Bool) (place : Nat) (r : Read α) : Read α := do
  let s ← get
  set { s with
    level := s.level + 1, variadic := variadic, loops := 0, labels := [], gotos := [],
    blockDepth := s.vars.length, place := place }
  let a ← r
  checkGotos
  modify fun t =>
    { t with
      vars := s.vars, level := s.level, variadic := s.variadic, loops := s.loops,
      labels := s.labels, gotos := s.gotos, blockDepth := s.blockDepth, place := s.place }
  return a

/-- Notes a `goto` whose label has not been found yet. -/
def State.addGoto (s : State) (n : String) (line : Nat) : State :=
  { s with gotos := s.gotos ++ [⟨n, line, s.vars.length⟩] }

/-- Declares a label; `depth` variables are visible at it. -/
def declareLabel (n : String) (line depth : Nat) : Read Unit := do
  let s ← get
  match s.gotos.find? (fun g => g.name == n && g.depth < depth) with
  | some g =>
    let entered := (s.vars.reverse[g.depth]?.map Variable.name).getD "?"
    reject ("<goto " ++ n ++ "> at line " ++ Decimal.natText g.line ++
      " jumps into the scope of local '" ++ entered ++ "'")
  | none =>
    set { s with
      labels := ⟨n, line, depth⟩ :: s.labels, gotos := s.gotos.filter (·.name != n) }

/-! ## Operators -/

/-- An operator between two expressions. -/
inductive Joiner where
  | binary (op : BinaryOp)
  | both
  | either

/-- Operators with their left and right binding strength. -/
def joiners : List (String × Joiner × Nat × Nat) :=
  [("+", .binary .add, 10, 10), ("-", .binary .sub, 10, 10), ("*", .binary .mul, 11, 11),
    ("%", .binary .mod, 11, 11), ("^", .binary .pow, 14, 13), ("/", .binary .div, 11, 11),
    ("//", .binary .idiv, 11, 11), ("&", .binary .band, 6, 6), ("|", .binary .bor, 4, 4),
    ("~", .binary .bxor, 5, 5), ("<<", .binary .shl, 7, 7), (">>", .binary .shr, 7, 7),
    ("..", .binary .concat, 9, 8), ("==", .binary .eq, 3, 3), ("~=", .binary .ne, 3, 3),
    ("<", .binary .lt, 3, 3), ("<=", .binary .le, 3, 3), (">", .binary .gt, 3, 3),
    (">=", .binary .ge, 3, 3), ("and", .both, 2, 2), ("or", .either, 1, 1)]

/-- The binding strength of operators before an expression. -/
def unaryStrength : Nat := 12

/-- The operator a lexeme is, between expressions. -/
def joiner? : Token → Option (Joiner × Nat × Nat)
  | .sign s => joiners.lookup s
  | _ => none

/-- The operator a lexeme is, before an expression. -/
def unary? : Token → Option UnaryOp
  | .sign "not" => some .not
  | .sign "-" => some .neg
  | .sign "~" => some .bnot
  | .sign "#" => some .len
  | _ => none

/-- Comparisons are blamed on the line their right side ends on, all other operators on their
own. -/
def isComparison : BinaryOp → Bool
  | .eq | .ne | .lt | .le | .gt | .ge => true
  | _ => false

/-- Two expressions joined by an operator. -/
def join (op : Joiner) (a b : Expr) (line last : Nat) : Expr :=
  match op with
  | .binary op => .binary op a b (if isComparison op then last else line)
  | .both => .both a b
  | .either => .either a b

/-- Which of some new variables is closed at the end of its scope. -/
def closingOf (names : List (String × VariableKind)) : Option (Nat × String) :=
  (names.findIdx? fun p => p.2 == .closing).bind fun i => names[i]?.map fun p => (i, p.1)

/-- What stands behind a variable's name to say what it is. -/
def declaredKind : Read VariableKind := do
  if ← accept "<" then
    let a ← name
    expect ">"
    if a == "const" then return .constant
    else if a == "close" then return .closing
    else reject ("unknown attribute '" ++ a ++ "'")
  else return .plain

/-- Names of new variables with what they are, separated by commas. -/
def newNames : (fuel : Nat) → (seen : List (String × VariableKind)) →
    Read (List (String × VariableKind))
  | 0, seen => return seen.reverse
  | fuel + 1, seen => do
    let n ← name
    let a ← declaredKind
    if a == .closing && seen.any (·.2 == .closing) then
      reject "multiple to-be-closed variables in local list"
    let seen := (n, a) :: seen
    if ← accept "," then newNames fuel seen else return seen.reverse

/-- Plain names, separated by commas. -/
def names : (fuel : Nat) → Read (List String)
  | 0 => return []
  | fuel + 1 => do
    let n ← name
    if ← accept "," then return n :: (← names fuel) else return [n]

/-- Parameters up to the closing parenthesis, and whether more arguments are taken. -/
def parameters : (fuel : Nat) → Read (List String × Bool)
  | 0 => return ([], false)
  | fuel + 1 => do
    match (← current).token with
    | .name n =>
      advance
      if ← accept "," then
        let (ns, variadic) ← parameters fuel
        return (n :: ns, variadic)
      else return ([n], false)
    | .sign "..." =>
      advance
      return ([], true)
    | _ => refuse "<name> or '...' expected"

/-- What is said when the reader cannot go on; never reached, since its fuel covers every
program. -/
def exhausted {α : Type} : Read α := throw ⟨"C stack overflow", "", 0⟩

/-- A literal, used. -/
def constant (v : Value) : Read Expr := do
  advance
  return .const v

/-- Whether an expression is the table of globals. -/
def isGlobals : Expr → Bool
  | .var _ n _ => n == "_ENV"
  | _ => false

/-- Whether an expression is a text. -/
def isText : Expr → Bool
  | .const (.str _) => true
  | _ => false

/-! ## Expressions and statements -/

mutual

/-- An expression. -/
def expr : (fuel : Nat) → Read Expr
  | 0 => exhausted
  | fuel + 1 => operand fuel 0

/-- An expression whose operators bind more tightly than a limit. -/
def operand : (fuel limit : Nat) → Read Expr
  | 0, _ => exhausted
  | fuel + 1, limit => deeper do
    let l ← current
    let a ← match unary? l.token with
      | some op => do
        advance
        let a ← operand fuel unaryStrength
        pure (Expr.unary op a l.line)
      | none => simple fuel
    operators fuel limit a

/-- The operators behind an operand. -/
def operators : (fuel limit : Nat) → Expr → Read Expr
  | 0, _, _ => exhausted
  | fuel + 1, limit, a => do
    let l ← current
    match joiner? l.token with
    | some (op, left, right) =>
      if limit < left then
        advance
        let b ← operand fuel right
        operators fuel limit (join op a b l.line (← lastLine))
      else return a
    | none => return a

/-- An expression without operators. -/
def simple : (fuel : Nat) → Read Expr
  | 0 => exhausted
  | fuel + 1 => do
    match (← current).token with
    | .number v => constant v
    | .string s => constant (.str s)
    | .sign "nil" => constant .nil
    | .sign "true" => constant (.bool true)
    | .sign "false" => constant (.bool false)
    | .sign "..." =>
      if !(← get).variadic then refuse "cannot use '...' outside a vararg function"
      advance
      return .vararg
    | .sign "\x7b" => table fuel
    | .sign "function" =>
      let line ← line
      advance
      return .closure (← function fuel false line)
    | _ => suffixed fuel

/-- A name or an expression in parentheses. -/
def primary : (fuel : Nat) → Read Expr
  | 0 => exhausted
  | fuel + 1 => do
    let l ← current
    match l.token with
    | .name n =>
      advance
      resolve n
    | .sign "(" =>
      advance
      let e ← expr fuel
      close ")" "(" l.line
      return .single e
    | _ => refuse "unexpected symbol"

/-- A primary expression with fields, indices and calls behind it. -/
def suffixed : (fuel : Nat) → Read Expr
  | 0 => exhausted
  | fuel + 1 => do suffixes fuel (← primary fuel)

/-- Fields, indices and calls behind an expression. -/
def suffixes : (fuel : Nat) → Expr → Read Expr
  | 0, _ => exhausted
  | fuel + 1, e => do
    let l ← current
    match l.token with
    | .sign "." =>
      advance
      let key ← name
      suffixes fuel (.index e (.const (.text key)) (isGlobals e) (← lastLine))
    | .sign "[" =>
      advance
      let key ← expr fuel
      expect "]"
      suffixes fuel (.index e key (isGlobals e && isText key) (← lastLine))
    | .sign ":" =>
      advance
      let n ← name
      let nameLine ← lastLine
      let line ← line
      let args ← arguments fuel
      suffixes fuel (.method e n args nameLine line)
    | .sign "(" | .sign "\x7b" | .string _ =>
      let args ← arguments fuel
      suffixes fuel (.call e args l.line)
    | _ => return e

/-- The arguments of a call. -/
def arguments : (fuel : Nat) → Read (List Expr)
  | 0 => exhausted
  | fuel + 1 => do
    let l ← current
    match l.token with
    | .sign "(" =>
      advance
      if ← accept ")" then return []
      else
        let es ← exprs fuel
        close ")" "(" l.line
        return es
    | .sign "\x7b" => return [← table fuel]
    | .string s =>
      advance
      return [.const (.str s)]
    | _ => refuse "function arguments expected"

/-- Expressions separated by commas. -/
def exprs : (fuel : Nat) → Read (List Expr)
  | 0 => exhausted
  | fuel + 1 => do
    let e ← expr fuel
    if ← accept "," then return e :: (← exprs fuel) else return [e]

/-- A table constructor. -/
def table : (fuel : Nat) → Read Expr
  | 0 => exhausted
  | fuel + 1 => do
    let line ← line
    expect "\x7b"
    let fs ← fields fuel
    close "\x7d" "\x7b" line
    return .table fs

/-- The entries of a table constructor. -/
def fields : (fuel : Nat) → Read (List Field)
  | 0 => exhausted
  | fuel + 1 => do
    if ← at? "\x7d" then return []
    let f ← field fuel
    if (← accept ",") || (← accept ";") then return f :: (← fields fuel) else return [f]

/-- An entry of a table constructor. -/
def field : (fuel : Nat) → Read Field
  | 0 => exhausted
  | fuel + 1 => do
    let s ← get
    match s.rest with
    | ⟨.sign "[", _, _⟩ :: _ =>
      advance
      let key ← expr fuel
      expect "]"
      expect "="
      let v ← expr fuel
      return .pair key v (← lastLine)
    | ⟨.name n, _, _⟩ :: ⟨.sign "=", _, _⟩ :: _ =>
      advance
      advance
      let v ← expr fuel
      return .pair (.const (.text n)) v (← lastLine)
    | ⟨.name n, shown, _⟩ :: next :: rest =>
      set { s with rest := ⟨.name n, shown, next.line⟩ :: next :: rest }
      return .item (← expr fuel)
    | _ => return .item (← expr fuel)

/-- The parameters and the body of a function that begins on a line. -/
def function : (fuel : Nat) → (isMethod : Bool) → (line : Nat) → Read Function
  | 0, _, _ => exhausted
  | fuel + 1, isMethod, line => do
    expect "("
    let (ps, variadic) ← if ← at? ")" then pure ([], false) else parameters fuel
    let ps := if isMethod then "self" :: ps else ps
    let chunk := (← get).chunk
    inFunction variadic line do
      declare (ps.map fun p => (p, .plain))
      expect ")"
      let body ← statements fuel
      close "end" "function" line
      return .mk ps.length variadic body ⟨chunk, line⟩

/-- Statements up to the end of a block. -/
def statements : (fuel : Nat) → Read (List Statement)
  | 0 => exhausted
  | fuel + 1 => do
    if ← blockEnds true then return []
    else if ← at? "return" then return ← deeper (statement fuel)
    else
      let first ← deeper (statement fuel)
      return first ++ (← statements fuel)

/-- A block with a scope of its own. -/
def block : (fuel : Nat) → Read (List Statement)
  | 0 => exhausted
  | fuel + 1 => inBlock (statements fuel)

/-- A statement; some are nothing to do. -/
def statement : (fuel : Nat) → Read (List Statement)
  | 0 => exhausted
  | fuel + 1 => do
    let l ← current
    match l.token with
    | .sign ";" =>
      advance
      return []
    | .sign "if" => return [← conditional fuel l.line]
    | .sign "while" =>
      advance
      let c ← expr fuel
      expect "do"
      let body ← inLoop (block fuel)
      close "end" "while" l.line
      return [.loopWhile c body l.line]
    | .sign "do" =>
      advance
      let body ← block fuel
      close "end" "do" l.line
      return [.block body]
    | .sign "for" =>
      advance
      return [← counting fuel l.line]
    | .sign "repeat" =>
      advance
      let body ← inLoop <| inBlock do
        let body ← statements fuel
        close "until" "repeat" l.line
        return body ++ [.endUnless (← expr fuel)]
      return [.loopUntil body l.line]
    | .sign "function" =>
      advance
      return [← namedFunction fuel l.line]
    | .sign "local" =>
      advance
      if ← accept "function" then
        let n ← name
        checkLocals 1
        declare [(n, .plain)]
        return [.localFunction (← function fuel false l.line)]
      else
        let ns ← newNames fuel []
        checkLocals ns.length
        let es ← if ← accept "=" then exprs fuel else pure []
        declare ns
        return [.locals ns.length (closingOf ns) es (← lastLine)]
    | .sign "::" =>
      advance
      label fuel (← name) l.line
    | .sign "return" =>
      advance
      let es ← if (← blockEnds true) || (← at? ";") then pure [] else exprs fuel
      let _ ← accept ";"
      return [.ret es]
    | .sign "break" =>
      advance
      let s ← get
      if s.loops = 0 then set (s.addGoto "break" l.line)
      return [.breakLoop]
    | .sign "goto" =>
      advance
      let line ← line
      let n ← name
      let s ← get
      if !s.labels.any (·.name == n) then set (s.addGoto n line)
      return [.goto n]
    | _ => return [← exprStatement fuel]

/-- A label, and statements behind it that are nothing to do. -/
def label : (fuel : Nat) → (n : String) → (line : Nat) → Read (List Statement)
  | 0, _, _ => exhausted
  | fuel + 1, n, line => do
    expect "::"
    let more ← idle fuel
    let s ← get
    match s.labels.find? (·.name == n) with
    | some l =>
      reject ("label '" ++ n ++ "' already defined on line " ++ Decimal.natText l.line)
    | none =>
      let depth := if ← blockEnds false then s.blockDepth else s.vars.length
      declareLabel n line depth
      return .label n depth :: more

/-- Labels and empty statements. -/
def idle : (fuel : Nat) → Read (List Statement)
  | 0 => exhausted
  | fuel + 1 => do
    if (← at? ";") || (← at? "::") then
      let first ← statement fuel
      return first ++ (← idle fuel)
    else return []

/-- A conditional from its `if` on. -/
def conditional : (fuel line : Nat) → Read Statement
  | 0, _ => exhausted
  | fuel + 1, line => do
    let all ← arms fuel
    let otherwise ← if ← accept "else" then block fuel else pure []
    close "end" "if" line
    return .branch all otherwise

/-- The arms of a conditional. -/
def arms : (fuel : Nat) → Read (List (Expr × List Statement))
  | 0 => exhausted
  | fuel + 1 => do
    advance
    let c ← expr fuel
    expect "then"
    let body ← block fuel
    if ← at? "elseif" then return (c, body) :: (← arms fuel) else return [(c, body)]

/-- A loop over numbers or values, from its first variable on. -/
def counting : (fuel line : Nat) → Read Statement
  | 0, _ => exhausted
  | fuel + 1, line => do
    let n ← name
    if ← accept "=" then
      let start ← expr fuel
      expect ","
      let limit ← expr fuel
      let step ← if ← accept "," then expr fuel else pure (.const (.int 1))
      let body ← loopBody fuel [n]
      close "end" "for" line
      return .loopNumbers start limit step body line
    else if (← at? ",") || (← at? "in") then
      let ns ← if ← accept "," then names fuel else pure []
      expect "in"
      let source ← exprs fuel
      let body ← loopBody fuel (n :: ns)
      close "end" "for" line
      return .loopValues (ns.length + 1) source body line
    else refuse "'=' or 'in' expected"

/-- The body of a counting loop with its variables. -/
def loopBody : (fuel : Nat) → List String → Read (List Statement)
  | 0, _ => exhausted
  | fuel + 1, ns => do
    expect "do"
    inLoop <| inBlock do
      declare (ns.map fun n => (n, .plain))
      block fuel

/-- A function statement from its name on. -/
def namedFunction : (fuel line : Nat) → Read Statement
  | 0, _ => exhausted
  | fuel + 1, line => do
    let target ← resolve (← name)
    let (target, isMethod) ← path fuel target
    let f ← function fuel isMethod line
    checkAssignable target
    return .assign [target] [.closure f] line

/-- The fields in the name of a function statement, and whether the last one makes a method. -/
def path : (fuel : Nat) → Expr → Read (Expr × Bool)
  | 0, _ => exhausted
  | fuel + 1, e => do
    if ← accept "." then
      let key ← name
      path fuel (.index e (.const (.text key)) false (← lastLine))
    else if ← accept ":" then
      let key ← name
      return (.index e (.const (.text key)) false (← lastLine), true)
    else return (e, false)

/-- A call or an assignment. -/
def exprStatement : (fuel : Nat) → Read Statement
  | 0 => exhausted
  | fuel + 1 => do
    let e ← suffixed fuel
    if (← at? "=") || (← at? ",") then assignment fuel [e]
    else
      match e with
      | .call .. | .method .. => return .call e
      | _ => refuse "syntax error"

/-- An assignment whose targets so far are given, last one first. -/
def assignment : (fuel : Nat) → List Expr → Read Statement
  | 0, _ => exhausted
  | fuel + 1, targets => do
    match targets with
    | .var .. :: _ | .index .. :: _ => pure ()
    | _ => refuse "syntax error"
    checkAssignable (targets.headD (.const .nil))
    if ← accept "," then assignment fuel ((← suffixed fuel) :: targets)
    else
      expect "="
      let values ← exprs fuel
      return .assign targets.reverse values (← lastLine)

end

/-- A whole program. -/
def program (fuel : Nat) : Read Function := do
  let chunk := (← get).chunk
  match (← current).token with
  | .broken message => refuse message
  | _ => pure ()
  inFunction true 0 do
    let body ← statements fuel
    match (← current).token with
    | .finish => pure ()
    | _ => refuse "<eof> expected"
    return .mk 0 true body ⟨chunk, 0⟩

end Parser

/-- A program as a function that takes any number of arguments. Its only outer variable is the table
of globals. -/
def parse (chunk source : String) : Except Problem Function :=
  let lexemes := Lexeme.scan source
  let start : Parser.State :=
    { rest := lexemes, vars := [⟨"_ENV", .plain, 0⟩], chunk := chunk }
  (Parser.program (20 * lexemes.length + 200) start).map Prod.fst

end Conveyor.Lua
