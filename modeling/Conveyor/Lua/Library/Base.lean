/-
The basic functions: errors, types, conversions and traversal.
-/
import Conveyor.Lua.Native

set_option autoImplicit false

namespace Conveyor.Lua.Library

open Numeral

/-! ## Errors -/

/-- Passes its arguments on if the first one is true, and fails with the second one otherwise. -/
def assertion (h : Heap) (args : List Value) : Plan :=
  if (argument args 1).truthy then .finish h args
  else
    .andThen h (checkAny args 1) fun _ =>
      let message := if args.length < 2 then Value.text "assertion failed!" else argument args 2
      .fail h (.raised message 0)

/-- Raises its first argument. -/
def raise (h : Heap) (args : List Value) : Plan :=
  .andThen h (optInt args 2 1) fun level => .fail h (.raised (argument args 1) level.toInt)

/-! ## Traversal -/

/-- The entry after a key, or `nil` at the end. -/
def nextEntry (h : Heap) (args : List Value) : Plan :=
  .andThen h (checkTable args 1) fun ref =>
    match ((h.table ref).next (argument args 2).key?) with
    | some (k, v) => .finish h [k.toValue, v]
    | none => .finish h [.nil]

/-- An iterator over all entries. -/
def pairs (h : Heap) (args : List Value) : Plan :=
  .andThen h (checkAny args 1) fun v => .finish h [builtinValue .next, v, .nil]

/-- An iterator over the entries at one, two and so on. -/
def ipairs (h : Heap) (args : List Value) : Plan :=
  .andThen h (checkAny args 1) fun v => .finish h [builtinValue .ipairsStep, v, .int 0]

/-- The entry at the next position. -/
def ipairsStep (h : Heap) (args : List Value) : Plan :=
  .andThen h (checkInt args 2) fun i =>
    indexed h (argument args 1) (.int (i + 1)) fun h v =>
      if v.isNil then .finish h [.nil] else .finish h [.int (i + 1), v]

/-- The arguments from a position on, or their number. -/
def select (h : Heap) (args : List Value) : Plan :=
  let n := args.length
  match argument args 1 with
  | .str s =>
    if s.toList.head? == some 35 then .finish h [.int (Int64.ofNat (n - 1))] else chosen n
  | _ => chosen n
where
  chosen (n : Nat) : Plan :=
    .andThen h (checkInt args 1) fun i =>
      let i := if i < 0 then (n : Int) + i.toInt else i.toInt
      if 1 ≤ i then .finish h (args.drop i.toNat)
      else .fail h (.argument 1 "index out of range")

/-! ## Types and conversions -/

/-- The name of a type. -/
def typeOf (h : Heap) (args : List Value) : Plan :=
  .andThen h (checkAny args 1) fun v => .finish h [.text v.typeName]

/-- The text of a value. -/
def toText (h : Heap) (args : List Value) : Plan :=
  .andThen h (checkAny args 1) fun v => .finish h [.str (textOfValue v)]

/-- The integer that digits of a base spell, wrapping; blanks and a minus may stand around them. -/
def intOfBase? (base : Nat) (s : ByteArray) : Option Int64 :=
  let cs := trim s.toList
  let (negative, cs) := match cs with
    | 45 :: cs => (true, cs)
    | cs => (false, cs)
  if cs.isEmpty || !cs.all fun c => (isDigit c || isLetter c) && digitValue c < base then none
  else
    let n := Int64.ofNat (natOf base cs)
    some (if negative then -n else n)

/-- The number a value stands for, if it stands for one. -/
def toNumber (h : Heap) (args : List Value) : Plan :=
  if isAbsent args 2 then
    match (argument args 1).number? with
    | some n => .finish h [n]
    | none => .andThen h (checkAny args 1) fun _ => .finish h [.nil]
  else
    .andThen h (checkInt args 2) fun base =>
      match argument args 1 with
      | .str s =>
        if 2 ≤ base && base ≤ 36 then
          match intOfBase? base.toInt.toNat s with
          | some i => .finish h [.int i]
          | none => .finish h [.nil]
        else .fail h (.argument 2 "base out of range")
      | _ => .fail h (typeFault args 1 "string")

/-! ## Access beside metatables -/

/-- Gives a table a metatable. -/
def setMetatable (h : Heap) (args : List Value) : Plan :=
  .andThen h (checkTable args 1) fun ref =>
    match argument args 2 with
    | .nil => .finish (h.updateTable ref fun t => { t with metatable := none }) [.table ref]
    | .table m => .finish (h.updateTable ref fun t => { t with metatable := some m }) [.table ref]
    | _ => .fail h (typeFault args 2 "nil or table")

/-- The metatable of a table. -/
def getMetatable (h : Heap) (args : List Value) : Plan :=
  .andThen h (checkAny args 1) fun v =>
    match v with
    | .table ref =>
      match (h.table ref).metatable with
      | some m => .finish h [.table m]
      | none => .finish h [.nil]
    | _ => .finish h [.nil]

/-- The entry of a key. -/
def rawGet (h : Heap) (args : List Value) : Plan :=
  .andThen h (checkTable args 1) fun ref =>
    .andThen h (checkAny args 2) fun k => .finish h [h.rawGet ref k]

/-- Sets the entry of a key. -/
def rawSet (h : Heap) (args : List Value) : Plan :=
  .andThen h (checkTable args 1) fun ref =>
    .andThen h (checkAny args 2) fun k =>
      .andThen h (checkAny args 3) fun v =>
        match k.key? with
        | some k => .finish (h.updateTable ref fun t => t.set k v) [.table ref]
        | none => .fail h (.plain ("table index is " ++ (if k.isNil then "nil" else "NaN")))

/-- The length of a table or text. -/
def rawLength (h : Heap) (args : List Value) : Plan :=
  match argument args 1 with
  | .table ref => .finish h [.int (Int64.ofNat (h.table ref).length)]
  | .str s => .finish h [.int (Int64.ofNat s.size)]
  | _ => .fail h (.argument 1 "table or string expected")

/-- Equality. -/
def rawEqual (h : Heap) (args : List Value) : Plan :=
  .andThen h (checkAny args 1) fun a =>
    .andThen h (checkAny args 2) fun b => .finish h [.bool (equal a b)]

end Conveyor.Lua.Library
