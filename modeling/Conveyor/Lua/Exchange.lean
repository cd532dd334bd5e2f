/-
JSON values and script values.

Into a script, an array becomes a table that is marked as an array, an object a table with text
keys, and null the value `null`, so that nothing is lost; integers beyond 63 bits become floats. Out
of a script, `nil` and functions have no JSON form and entries that hold them are left out. A table
whose keys are positive integers without large gaps is an array, any other an object whose names are
the keys as text; an empty table is an object unless it carries the mark.
-/
import Conveyor.Json.Value
import Conveyor.Decimal.Layout
import Conveyor.Lua.Heap

set_option autoImplicit false

namespace Conveyor.Lua

/-! ## Into a script -/

/-- A JSON number as a script number. -/
def ofNumber : Json.Number → Value
  | .int i => if i ≤ Json.maxSigned then .int (Int64.ofInt i) else .float (Float.ofInt i)
  | .float x => .float x

mutual

/-- Puts a JSON value into the store. -/
def inject (h : Heap) : Json → Heap × Value
  | .null => (h, .null)
  | .bool b => (h, .bool b)
  | .num n => (h, ofNumber n)
  | .str s => (h, .text s)
  | .arr xs =>
    let (h, t) :=
      injectItems h { Table.withRoom xs.length 0 with metatable := some h.arrayMark } 1 xs
    let (h, ref) := h.newTable t
    (h, .table ref)
  | .obj o =>
    let (h, t) := injectMembers h (Table.withRoom 0 o.length) o
    let (h, ref) := h.newTable t
    (h, .table ref)

/-- Puts array entries into the store, and into a table from a position on. -/
def injectItems (h : Heap) (t : Table) (n : Nat) : List Json → Heap × Table
  | [] => (h, t)
  | x :: xs =>
    let (h, v) := inject h x
    injectItems h (t.set (.int (Int64.ofNat n)) v) (n + 1) xs

/-- Puts object members into the store and into a table. -/
def injectMembers (h : Heap) (t : Table) : List (String × Json) → Heap × Table
  | [] => (h, t)
  | (k, x) :: rest =>
    let (h, v) := inject h x
    injectMembers h (t.set (.text k) v) rest

end

/-! ## Out of a script -/

/-- Why a script value has no JSON form. -/
inductive ExchangeError where
  | tooDeep
  | notText
  deriving DecidableEq

/-- The text of an exchange error. -/
def ExchangeError.message : ExchangeError → String
  | tooDeep => "returned value is nested too deeply (cyclic table?)"
  | notText => "error converting Lua string to text (invalid utf-8)"

/-- How many tables deep a value may nest (`MAX_CONVERSION_DEPTH`). -/
def maxTables : Nat := 65

/-- Positions up to this one never make a table too sparse for an array (`SPARSE_ARRAY_SAFE`). -/
def denseUpTo : Int := 10

/-- Beyond that, how many positions there may be for each entry (`SPARSE_ARRAY_RATIO`). -/
def positionsPerEntry : Nat := 2

/-- The position a key is in an array. -/
def position? : Key → Option Int
  | .int i => if 1 ≤ i.toInt then some i.toInt else none
  | _ => none

/-- Whether keys are those of an array: positions only, the last one not too far out. -/
def areSequence (keys : List Key) : Bool :=
  keys.all fun k =>
    match position? k with
    | some i => i ≤ denseUpTo || i ≤ keys.length * positionsPerEntry
    | none => false

/-- The text of bytes. -/
def textOf (s : ByteArray) : Except ExchangeError String :=
  match String.fromUTF8? s with
  | some t => .ok t
  | none => .error .notText

/-- The name of a key in an object; only texts and numbers have one. -/
def memberName : Key → Except ExchangeError (Option String)
  | .str s => (textOf s).map some
  | .int i => .ok (some (Decimal.intText i.toInt))
  | .float x => .ok (some (Decimal.positionalText x))
  | _ => .ok none

/-- Array entries that have a JSON form, in the given order. -/
def extractItems (extract : Value → Except ExchangeError (Option Json)) :
    List (Key × Value) → Except ExchangeError (List Json)
  | [] => .ok []
  | (_, v) :: rest => do
    let x ← extract v
    let xs ← extractItems extract rest
    return x.toList ++ xs

/-- Object members that have a name and a JSON form, put into an object in the given order. -/
def extractMembers (extract : Value → Except ExchangeError (Option Json)) (o : Json.Object) :
    List (Key × Value) → Except ExchangeError Json.Object
  | [] => .ok o
  | (k, v) :: rest => do
    match ← memberName k with
    | none => extractMembers extract o rest
    | some name =>
      match ← extract v with
      | none => extractMembers extract o rest
      | some x => extractMembers extract (o.insert name x) rest

/-- Entries of a table as a JSON value (`table_to_json`). -/
def extractEntries (extract : Value → Except ExchangeError (Option Json)) (marked : Bool)
    (entries : List (Key × Value)) : Except ExchangeError Json :=
  if entries.isEmpty then .ok (if marked then .arr [] else .obj [])
  else if areSequence (entries.map Prod.fst) then
    (extractItems extract (entries.mergeSort fun a b =>
      (position? a.1).getD 0 ≤ (position? b.1).getD 0)).map .arr
  else (extractMembers extract [] entries).map .obj

/-- The JSON form of a value, if it has one; tables are enumerated in a given order and may nest for
a number of levels. -/
def extractWith (enumerate : Table → List (Key × Value)) (h : Heap) :
    (levels : Nat) → Value → Except ExchangeError (Option Json)
  | _, .nil => .ok none
  | _, .bool b => .ok (some (.bool b))
  | _, .int i => .ok (some (.ofInt i.toInt))
  | _, .float x => .ok (some (.ofFloat x))
  | _, .str s => (textOf s).map fun t => some (.str t)
  | _, .null => .ok (some .null)
  | _, .function _ => .ok none
  | 0, .table _ => .error .tooDeep
  | levels + 1, .table ref =>
    let t := h.table ref
    (extractEntries (extractWith enumerate h levels) (t.metatable == some h.arrayMark)
      (enumerate t)).map some

/-- The JSON form of a value, if it has one (`lua_to_json`). -/
def extract (h : Heap) (v : Value) : Except ExchangeError (Option Json) :=
  extractWith Table.entries h maxTables v

end Conveyor.Lua
