/-
Programs of the script language as trees.

Variables are resolved while reading: a variable is known by how many variables were declared after
it, so the innermost one has index zero. The outermost variable of every program holds the table of
globals, and a global is a field of it. Expressions that can fail carry the line they are blamed on.
-/
import Conveyor.Lua.Value

set_option autoImplicit false

namespace Conveyor.Lua

/-- The operators with two operands that are always both evaluated. -/
inductive BinaryOp where
  | add | sub | mul | mod | pow | div | idiv
  | band | bor | bxor | shl | shr
  | concat
  | eq | ne | lt | le | gt | ge
  deriving DecidableEq, Repr

/-- The operators with one operand. -/
inductive UnaryOp where
  | neg | not | len | bnot
  deriving DecidableEq, Repr

/-- What a local variable is declared to be. -/
inductive VariableKind where
  | plain
  | constant
  | closing
  deriving DecidableEq

/-- Where a function stands: the chunk, and the line it begins on, zero for a whole chunk. -/
structure Place where
  chunk : String
  line : Nat

mutual

/-- An expression. -/
inductive Expr where
  | const (v : Value)
  | vararg
  /-- A variable; `outer` if it belongs to an enclosing function. -/
  | var (index : Nat) (name : String) (outer : Bool)
  /-- A field of a table; `global` if the table is the one of globals and the key a name. -/
  | index (object key : Expr) (global : Bool) (line : Nat)
  | call (callee : Expr) (args : List Expr) (line : Nat)
  | method (object : Expr) (name : String) (args : List Expr) (nameLine line : Nat)
  | closure (f : Function)
  | binary (op : BinaryOp) (a b : Expr) (line : Nat)
  | unary (op : UnaryOp) (a : Expr) (line : Nat)
  | both (a b : Expr)
  | either (a b : Expr)
  | table (fields : List Field)
  /-- An expression in parentheses has exactly one value. -/
  | single (e : Expr)

/-- An entry of a table constructor. -/
inductive Field where
  | item (e : Expr)
  | pair (key value : Expr) (line : Nat)

/-- A function; parameters become the innermost variables of its body, the last one first. -/
inductive Function where
  | mk (params : Nat) (variadic : Bool) (body : List Statement) (place : Place)

/-- A statement. -/
inductive Statement where
  | locals (count : Nat) (closing : Option (Nat × String)) (values : List Expr) (line : Nat)
  | localFunction (f : Function)
  | assign (targets values : List Expr) (line : Nat)
  | call (e : Expr)
  | block (body : List Statement)
  | loopWhile (condition : Expr) (body : List Statement) (line : Nat)
  /-- The body ends in `endUnless`, which still sees the variables of the body. -/
  | loopUntil (body : List Statement) (line : Nat)
  | endUnless (condition : Expr)
  | branch (arms : List (Expr × List Statement)) (otherwise : List Statement)
  | loopNumbers (start limit step : Expr) (body : List Statement) (line : Nat)
  | loopValues (count : Nat) (source : List Expr) (body : List Statement) (line : Nat)
  | ret (values : List Expr)
  | breakLoop
  | goto (label : String)
  /-- A label, and how many variables are visible at it. -/
  | label (name : String) (depth : Nat)

end

instance : Inhabited Expr := ⟨.const .nil⟩

instance : Inhabited Function := ⟨.mk 0 false [] ⟨"", 0⟩⟩

instance : Inhabited Statement := ⟨.breakLoop⟩

/-! ## Names for messages -/

/-- What a value came from, as messages describe it: a kind of place and its name. -/
structure Origin where
  kind : String
  name : String

namespace Origin

/-- The description that follows a type name in a message. -/
def text (o : Origin) : String := " (" ++ o.kind ++ " '" ++ o.name ++ "')"

end Origin

namespace Expr

/-- The name under which a key is shown. -/
def keyName : Expr → String
  | .const (.str s) => (String.fromUTF8? s).getD "?"
  | .const (.int i) => if 0 ≤ i && i ≤ 255 then "integer index" else "?"
  | _ => "?"

/-- Where the value of an expression comes from, if a message can say. -/
def origin? : Expr → Option Origin
  | .const (.str s) => (String.fromUTF8? s).map fun name => ⟨"constant", name⟩
  | .var _ name outer => some ⟨if outer then "upvalue" else "local", name⟩
  | .index _ key global _ => some ⟨if global then "global" else "field", key.keyName⟩
  | .single e => e.origin?
  | _ => none

end Expr

end Conveyor.Lua
