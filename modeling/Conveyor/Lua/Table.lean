/-
Tables of the script language.

A table holds a value for each key, and `nil` for a key it does not hold. Keys that are small
positive integers live in a row of slots, all others in an ordered map. The row may have holes, and
where it ends decides what the length operator answers for a table with holes: the row is laid out
anew, to the largest size of which more than half is in use, whenever the map has no room for one
more key.
-/
import Conveyor.Decimal.Binary
import Conveyor.Lua.Value
import Std.Data.TreeMap.Basic

set_option autoImplicit false

namespace Conveyor.Lua

/-! ## Keys -/

/-- What can index an entry of a table. Floats among the keys are never whole and never NaN. -/
inductive Key where
  | bool (b : Bool)
  | int (i : Int64)
  | float (x : Float)
  | str (s : ByteArray)
  | null
  | table (ref : Nat)
  | function (ref : Nat)
  deriving Inhabited

namespace Key

/-- Kinds of keys, in their order. -/
def rank : Key → Nat
  | int _ => 0
  | str _ => 1
  | float _ => 2
  | bool _ => 3
  | null => 4
  | table _ => 5
  | function _ => 6

/-- A total order on keys; equal keys are the same key. -/
def compare : Key → Key → Ordering
  | int i, int j => Ord.compare i.toInt j.toInt
  | str s, str t => compareBytes s t
  | float x, float y => Ord.compare x.toBits.toNat y.toBits.toNat
  | bool a, bool b => Ord.compare a.toNat b.toNat
  | table a, table b => Ord.compare a b
  | function a, function b => Ord.compare a b
  | a, b => Ord.compare a.rank b.rank

/-- The value a key is. -/
def toValue : Key → Value
  | bool b => .bool b
  | int i => .int i
  | float x => .float x
  | str s => .str s
  | null => .null
  | table ref => .table ref
  | function ref => .function ref

/-- The key a text is. -/
def text (s : String) : Key := .str s.toUTF8

end Key

/-- The integer of 64 bits that a float is exactly, if it is one. -/
def intOfFloat? (x : Float) : Option Int64 :=
  match Decimal.wholeOfFloat? x with
  | some i => if -2 ^ (63 : Nat) ≤ i && i < 2 ^ (63 : Nat) then some (Int64.ofInt i) else none
  | none => none

/-- The key a value is; `nil` and NaN are none, and a whole float is the integer it equals. -/
def Value.key? : Value → Option Key
  | nil => none
  | bool b => some (.bool b)
  | int i => some (.int i)
  | float x =>
    if x.isNaN then none
    else
      match intOfFloat? x with
      | some i => some (.int i)
      | none => some (.float x)
  | str s => some (.str s)
  | null => some .null
  | table ref => some (.table ref)
  | function ref => some (.function ref)

/-! ## Tables -/

/-- A table: its row of slots, its other entries, and how many keys were put beside the row out of
how many there is room for. -/
structure Table where
  row : Array Value := #[]
  fields : Std.TreeMap Key Value Key.compare := ∅
  used : Nat := 0
  room : Nat := 0
  /-- The table that says how this one behaves, if any. -/
  metatable : Option Nat := none
  deriving Inhabited

namespace Table

/-- The least power of two that is not below a number. -/
def powerAbove (n : Nat) : Nat := if n ≤ 1 then n else 2 ^ (Nat.log2 (n - 1) + 1)

/-- An empty table made for the given numbers of slots and of other entries. -/
def withRoom (slots others : Nat) : Table :=
  { row := Array.replicate slots .nil, room := powerAbove others }

/-- The slot of a key, if the row has one. -/
def slot? (t : Table) : Key → Option Nat
  | .int i => if 1 ≤ i && i.toInt ≤ t.row.size then some (i.toInt.toNat - 1) else none
  | _ => none

/-- The value of a key. -/
def get (t : Table) (k : Key) : Value :=
  match t.slot? k with
  | some i => t.row.getD i .nil
  | none => t.fields.getD k .nil

/-! ## Laying out the row -/

/-- How many numbers of a list lie in `1 .. n`. -/
def countUpTo (ns : List Nat) (n : Nat) : Nat := ns.countP (fun k => 1 ≤ k && k ≤ n)

/-- The largest power of two of which more than half of the slots would be in use, up to
`2 ^ (bits - 1)`. -/
def bestSize (ns : List Nat) : (bits : Nat) → Nat
  | 0 => 0
  | bits + 1 => if 2 ^ bits < 2 * countUpTo ns (2 ^ bits) then 2 ^ bits else bestSize ns bits

/-- The positive integers among the keys in use. -/
def positions (t : Table) : List Nat :=
  let inRow := (List.range t.row.size).filterMap fun i =>
    if (t.row.getD i .nil).isNil then none else some (i + 1)
  let beside := t.fields.foldl (fun acc k _ =>
    match k with
    | .int i => if 1 ≤ i then i.toInt.toNat :: acc else acc
    | _ => acc) []
  inRow ++ beside

/-- The positive integer a key is. -/
def positionOf : Key → Option Nat
  | .int i => if 1 ≤ i then some i.toInt.toNat else none
  | _ => none

/-- Puts a value where its key belongs, when there is room. -/
def put (t : Table) (k : Key) (v : Value) : Table :=
  match t.slot? k with
  | some i => { t with row := t.row.set! i v }
  | none => { t with fields := t.fields.insert k v, used := t.used + 1 }

/-- A row of another size: slots beyond it move to the map, entries that now have a slot move in. -/
def resize (t : Table) (size others : Nat) : Table :=
  let kept := (List.range size).foldl (fun row i => row.push (t.row.getD i .nil)) #[]
  let empty : Table :=
    { row := kept, fields := ∅, used := 0, room := powerAbove others, metatable := t.metatable }
  let cut := (List.range (t.row.size - size)).foldl (fun acc j =>
    let v := t.row.getD (size + j) .nil
    if v.isNil then acc else acc.put (.int (Int64.ofNat (size + j + 1))) v) empty
  t.fields.foldl (fun acc k v => acc.put k v) cut

/-- Lays the table out anew for one more key. -/
def relayout (t : Table) (k : Key) : Table :=
  let ns := (positionOf k).toList ++ t.positions
  let size := bestSize ns (Nat.log2 (2 * ns.length + 1) + 1)
  let inRow := countUpTo ns size
  let total :=
    ns.length + t.fields.foldl (fun n k _ => if (positionOf k).isSome then n else n + 1) 0 +
    (if (positionOf k).isSome then 0 else 1)
  t.resize size (total - inRow)

/-- Sets the value of a key; `nil` removes the entry. -/
def set (t : Table) (k : Key) (v : Value) : Table :=
  match t.slot? k with
  | some i => { t with row := t.row.set! i v }
  | none =>
    if v.isNil then { t with fields := t.fields.erase k }
    else if t.fields.contains k then { t with fields := t.fields.insert k v }
    else if t.used < t.room then t.put k v
    else (t.relayout k).put k v

/-- A table with at least so many slots. -/
def growRow (t : Table) (size : Nat) : Table :=
  if t.row.size < size then t.resize size t.room else t

/-! ## Length and traversal -/

/-- Whether a position of the row holds a value. -/
def filled (t : Table) (n : Nat) : Bool := !(t.row.getD (n - 1) .nil).isNil

/-- Halves the range between a filled position (or zero) and an empty one. -/
def borderWithin (t : Table) : (fuel lo hi : Nat) → Nat
  | 0, lo, _ => lo
  | fuel + 1, lo, hi =>
    if hi - lo ≤ 1 then lo
    else
      let mid := (lo + hi) / 2
      if t.filled mid then borderWithin t fuel mid hi else borderWithin t fuel lo mid

/-- How far a run of integer keys beside the row goes on after `n`. -/
def runAfter (t : Table) : (fuel n : Nat) → Nat
  | 0, n => n
  | fuel + 1, n =>
    if t.fields.contains (.int (Int64.ofNat (n + 1))) then runAfter t fuel (n + 1) else n

/-- A border of the table: a position that is filled, or zero, while the next one is empty. -/
def length (t : Table) : Nat :=
  let n := t.row.size
  if n = 0 then t.runAfter t.fields.size 0
  else if !t.filled n then
    if 2 ≤ n && t.filled (n - 1) then n - 1 else t.borderWithin n 0 n
  else t.runAfter t.fields.size n

/-- The first filled slot from an index on. -/
def slotFrom (t : Table) : (fuel i : Nat) → Option (Key × Value)
  | 0, _ => none
  | fuel + 1, i =>
    if i < t.row.size then
      let v := t.row.getD i .nil
      if v.isNil then slotFrom t fuel (i + 1) else some (.int (Int64.ofNat (i + 1)), v)
    else none

/-- The entry after a key, or the first one. -/
def next (t : Table) (k : Option Key) : Option (Key × Value) :=
  match k with
  | none => t.slotFrom t.row.size 0 <|> t.fields.minEntry?
  | some k =>
    match t.slot? k with
    | some i => t.slotFrom t.row.size (i + 1) <|> t.fields.minEntry?
    | none => t.fields.getEntryGT? k

/-- All entries. -/
def entries (t : Table) : List (Key × Value) :=
  let inRow := (List.range t.row.size).filterMap fun i =>
    let v := t.row.getD i .nil
    if v.isNil then none else some (Key.int (Int64.ofNat (i + 1)), v)
  inRow ++ t.fields.toList

end Table

end Conveyor.Lua
