/-
The store of a running program.

Tables, variables and functions live in the store and are known by their place in it. Nothing is
ever removed: a program that runs within its budget cannot fill the store.
-/
import Conveyor.Lua.Table
import Conveyor.Lua.Tree

set_option autoImplicit false

namespace Conveyor.Lua

/-- The functions every program finds. -/
inductive Builtin where
  | assert | error | ipairs | ipairsStep | next | pairs | select | tonumber | tostring | type | warn
  | setmetatable | getmetatable | rawequal | rawget | rawlen | rawset | print | pcall | unavailable
  | byte | char | find | format | gmatch | gsub | len | lower | match | rep | reverse | sub | upper
  | concat | insert | move | pack | remove | sort | unpack
  | abs | ceil | cos | exp | floor | fmod | log | max | min | modf | sin | sqrt | tan | tointeger
  | mathType | ult
  | utf8char | codepoint | utf8len | offset
  deriving DecidableEq, Inhabited

/-- A function of the store. -/
inductive Callable where
  /-- A function of a program with the variables it sees, innermost first. -/
  | closure (f : Function) (env : List Nat)
  | builtin (b : Builtin)
  /-- A function of the host. -/
  | host (name : String)
  /-- Produces the matches of a pattern one by one: where to go on, and where the last match
  ended. -/
  | matches (subject pattern : ByteArray) (start : Nat) (last : Option Nat)
  deriving Inhabited

/-- The store. -/
structure Heap where
  tables : Array Table := #[]
  cells : Array Value := #[]
  functions : Array Callable := #[]
  /-- The table of globals. -/
  globals : Nat := 0
  /-- The table in which methods of strings are looked up. -/
  textMethods : Nat := 0
  /-- The metatable that marks a table as a JSON array. -/
  arrayMark : Nat := 0
  /-- What a name is registered as, for messages. -/
  names : List (Nat × String) := []

namespace Heap

/-- Adds a table. -/
def newTable (h : Heap) (t : Table) : Heap × Nat :=
  let ref := h.tables.size
  ({ h with tables := h.tables.push t }, ref)

/-- Adds a variable. -/
def newCell (h : Heap) (v : Value) : Heap × Nat :=
  let ref := h.cells.size
  ({ h with cells := h.cells.push v }, ref)

/-- Adds a function. -/
def newFunction (h : Heap) (f : Callable) : Heap × Nat :=
  let ref := h.functions.size
  ({ h with functions := h.functions.push f }, ref)

/-- Adds variables for some values; their places come back innermost first, before `env`. -/
def newCells (h : Heap) (env : List Nat) : List Value → Heap × List Nat
  | [] => (h, env)
  | v :: vs =>
    let ref := h.cells.size
    newCells { h with cells := h.cells.push v } (ref :: env) vs

/-- The value of a variable. -/
def cell (h : Heap) (ref : Nat) : Value := h.cells.getD ref .nil

/-- Sets a variable. -/
def setCell (h : Heap) (ref : Nat) (v : Value) : Heap :=
  { h with cells := h.cells.setIfInBounds ref v }

/-- A table of the store. -/
def table (h : Heap) (ref : Nat) : Table := h.tables.getD ref {}

/-- Changes a table. -/
def updateTable (h : Heap) (ref : Nat) (f : Table → Table) : Heap :=
  { h with tables := h.tables.modify ref f }

/-- The entry of a key in a table, without asking its metatable. -/
def rawGet (h : Heap) (ref : Nat) (k : Value) : Value :=
  match k.key? with
  | some k => (h.table ref).get k
  | none => .nil

/-- The entry of a text in a table. -/
def field (h : Heap) (ref : Nat) (name : String) : Value := (h.table ref).get (.text name)

/-- Sets the entry of a text in a table. -/
def setField (h : Heap) (ref : Nat) (name : String) (v : Value) : Heap :=
  h.updateTable ref fun t => t.set (.text name) v

/-- The handler a table's metatable has for an event. -/
def handler (h : Heap) (ref : Nat) (event : String) : Value :=
  match (h.table ref).metatable with
  | some m => h.field m event
  | none => .nil

end Heap

/-! ## Looking up -/

/-- What looking up a key in a value comes to. -/
inductive Lookup where
  | found (v : Value)
  /-- The entry is absent, and a function is to be asked for it. -/
  | ask (f : Value) (object key : Value)
  /-- The value has no entries. -/
  | notIndexable (object : Value)

/-- Looks a key up, going from a table to the tables that stand in for what it lacks. -/
def Heap.lookup (h : Heap) : (fuel : Nat) → (object key : Value) → Lookup
  | 0, _, _ => .found .nil
  | fuel + 1, .table ref, key =>
    let v := h.rawGet ref key
    if !v.isNil then .found v
    else
      match h.handler ref "__index" with
      | .nil => .found .nil
      | .function f => .ask (.function f) (.table ref) key
      | other => lookup h fuel other key
  | _, .str _, key => .found (h.rawGet h.textMethods key)
  | _, object, _ => .notIndexable object

/-- The most tables a lookup goes through. -/
def maxChain : Nat := 2000

end Conveyor.Lua
