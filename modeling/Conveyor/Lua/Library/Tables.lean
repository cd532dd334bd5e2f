/-
Functions on tables used as lists.

Sorting is quicksort with the middle element, or the median of three, as pivot. The comparisons it
makes and their order are fixed, because a comparison may be a function of the program, and because
elements that compare equal keep no order of their own.
-/
import Conveyor.Lua.Native

set_option autoImplicit false

namespace Conveyor.Lua.Library

/-! ## Elements -/

/-- The element at a position. -/
def element (h : Heap) (ref : Nat) (i : Int) : Value := (h.table ref).get (.int (Int64.ofInt i))

/-- Sets the element at a position. -/
def setElement (h : Heap) (ref : Nat) (i : Int) (v : Value) : Heap :=
  h.updateTable ref fun t => t.set (.int (Int64.ofInt i)) v

/-- The number of elements. -/
def size (h : Heap) (ref : Nat) : Int := (h.table ref).length

/-- Moves elements up by one, from the last position down to a first one. -/
def shiftUp (ref : Nat) : (n : Nat) → Heap → (last : Int) → Heap
  | 0, h, _ => h
  | n + 1, h, last => shiftUp ref n (setElement h ref last (element h ref (last - 1))) (last - 1)

/-- Moves elements down by one, from a first position up. -/
def shiftDown (ref : Nat) : (n : Nat) → Heap → (first : Int) → Heap
  | 0, h, _ => h
  | n + 1, h, first =>
    shiftDown ref n (setElement h ref first (element h ref (first + 1))) (first + 1)

/-- Inserts an element at a position, or at the end. -/
def insertElement (h : Heap) (args : List Value) : Plan :=
  .andThen h (checkTable args 1) fun ref =>
    let e := size h ref + 1
    match args.length with
    | 2 => .finish (setElement h ref e (argument args 2)) []
    | 3 =>
      .andThen h (checkInt args 2) fun pos =>
        let pos := pos.toInt
        if 1 ≤ pos && pos ≤ e then
          let h := shiftUp ref (e - pos).toNat h e
          .finish (setElement h ref pos (argument args 3)) []
        else .fail h (.argument 2 "position out of bounds")
    | _ => .fail h (.located "wrong number of arguments to 'insert'")

/-- Removes the element at a position, or the last one. -/
def removeElement (h : Heap) (args : List Value) : Plan :=
  .andThen h (checkTable args 1) fun ref =>
    let n := size h ref
    .andThen h (optInt args 2 (Int64.ofInt n)) fun pos =>
      let pos := pos.toInt
      if pos = n || (1 ≤ pos && pos ≤ n + 1) then
        let v := element h ref pos
        let h := shiftDown ref (n - pos).toNat h pos
        .finish (setElement h ref (max pos n) .nil) [v]
      else .fail h (.argument 2 "position out of bounds")

/-- Elements joined into a text. -/
def joinFrom (h : Heap) (ref : Nat) (separator : ByteArray) :
    (fuel : Nat) → (i last : Int) → ByteArray → Except Fault ByteArray
  | 0, _, _, out => .ok out
  | fuel + 1, i, last, out =>
    if last < i then .ok out
    else
      match (element h ref i).bytes? with
      | some s =>
        let out := out ++ s
        joinFrom h ref separator fuel (i + 1) last (if i < last then out ++ separator else out)
      | none =>
        .error (.located ("invalid value (at index " ++ Decimal.intText i ++
          ") in table for 'concat'"))

/-- The elements between two positions as a text, a separator between them. -/
def join (h : Heap) (args : List Value) : Except Fault (List Value) := do
  let ref ← checkTable args 1
  let separator ← optText args 2 ByteArray.empty
  let i := (← optInt args 3 1).toInt
  let last := (← optInt args 4 (Int64.ofInt (size h ref))).toInt
  return [.str (← joinFrom h ref separator (last - i + 1).toNat i last ByteArray.empty)]

/-- The arguments as a table that also knows their number. -/
def packed (h : Heap) (args : List Value) : Plan :=
  let t := (List.range args.length).foldl (fun t i =>
    t.set (.int (Int64.ofNat (i + 1))) (args.getD i .nil)) (Table.withRoom args.length 1)
  let (h, ref) := h.newTable (t.set (.text "n") (.int (Int64.ofNat args.length)))
  .finish h [.table ref]

/-- The most results of a function. -/
def maxResults : Int := 1000000

/-- The elements between two positions as results. -/
def unpacked (h : Heap) (args : List Value) : Except Fault (List Value) := do
  let v := argument args 1
  let i := (← optInt args 2 1).toInt
  let length : Int ← match v with
    | .table ref => pure (size h ref)
    | .str s => pure (s.size : Int)
    | v =>
      if isAbsent args 3 then
        .error (.plain ("attempt to get length of a " ++ v.typeName ++ " value"))
      else pure 0
  let last := (← optInt args 3 (Int64.ofInt length)).toInt
  if last < i then return []
  else if maxResults ≤ last - i then .error (.located "too many results to unpack")
  else
    match v with
    | .table ref =>
      return (List.range (last - i + 1).toNat).map fun (k : Nat) => element h ref (i + k)
    | .str _ => return List.replicate (last - i + 1).toNat .nil
    | v => .error (.plain ("attempt to index a " ++ v.typeName ++ " value"))

/-- Copies elements to another position, of this or another table. -/
def moveElements (h : Heap) (args : List Value) : Plan :=
  .andThen h (checkTable args 1) fun source =>
    .andThen h (checkInt args 2) fun first =>
      .andThen h (checkInt args 3) fun last =>
        .andThen h (checkInt args 4) fun target =>
          let place := if isAbsent args 5 then .ok source else checkTable args 5
          .andThen h place fun ref =>
            let n := (last.toInt - first.toInt + 1).toNat
            let order := List.range n
            let overlaps := first.toInt < target.toInt && target.toInt ≤ last.toInt && ref == source
            let order := if overlaps then order.reverse else order
            .finish (order.foldl (fun h (k : Nat) =>
              setElement h ref (target.toInt + k) (element h source (first.toInt + k))) h)
              [.table ref]

/-! ## Sorting -/

/-- Asks whether one value comes before another. -/
def before (less : Value) (h : Heap) (a b : Value) (k : Heap → Bool → Plan) : Plan :=
  match less with
  | .nil =>
    match lessThan a b with
    | .ok r => k h r
    | .error e => .fail h (.plain (e.message a b (none, none)))
  | f => .call h f [a, b] fun h vs => k h (first vs).truthy

/-- Exchanges two elements. -/
def exchange (xs : Array Value) (i j : Nat) : Array Value :=
  let a := xs.getD i .nil
  let b := xs.getD j .nil
  (xs.setIfInBounds i b).setIfInBounds j a

/-- The complaint about a comparison that is no order. -/
def invalidOrder (h : Heap) : Plan := .fail h (.located "invalid order function for sorting")

/-- The first position after `i` whose element does not come before the pivot. -/
def scanUp (less pivot : Value) (xs : Array Value) (up : Nat) :
    (fuel : Nat) → Heap → (i : Nat) → (Heap → Nat → Plan) → Plan
  | 0, h, _, _ => invalidOrder h
  | fuel + 1, h, i, k =>
    before less h (xs.getD (i + 1) .nil) pivot fun h b =>
      if b then
        (if i + 1 = up - 1 then invalidOrder h else scanUp less pivot xs up fuel h (i + 1) k)
      else k h (i + 1)

/-- The last position before `j` whose element the pivot does not come before. -/
def scanDown (less pivot : Value) (xs : Array Value) (i : Nat) :
    (fuel : Nat) → Heap → (j : Nat) → (Heap → Nat → Plan) → Plan
  | 0, h, _, _ => invalidOrder h
  | fuel + 1, h, j, k =>
    before less h pivot (xs.getD (j - 1) .nil) fun h b =>
      if b then (if j - 1 < i then invalidOrder h else scanDown less pivot xs i fuel h (j - 1) k)
      else k h (j - 1)

/-- Parts a range around the pivot that stands before its last element; the pivot's place comes
back. -/
def partition (less pivot : Value) (up : Nat) :
    (fuel : Nat) → Heap → Array Value → (i j : Nat) → (Heap → Array Value → Nat → Plan) → Plan
  | 0, h, _, _, _, _ => invalidOrder h
  | fuel + 1, h, xs, i, j, k =>
    scanUp less pivot xs up (fuel + 1) h i fun h i =>
      scanDown less pivot xs i (fuel + 1) h j fun h j =>
        if j < i then k h (exchange xs (up - 1) i) i
        else partition less pivot up fuel h (exchange xs i j) i j k

/-- Puts the first, the middle and the last element of a range in order. -/
def orderEnds (less : Value) (h : Heap) (xs : Array Value) (lo up : Nat)
    (k : Heap → Array Value → Plan) : Plan :=
  before less h (xs.getD up .nil) (xs.getD lo .nil) fun h b =>
    let xs := if b then exchange xs lo up else xs
    if up - lo = 1 then k h xs
    else
      let p := (lo + up) / 2
      before less h (xs.getD p .nil) (xs.getD lo .nil) fun h b =>
        if b then k h (exchange xs p lo)
        else
          before less h (xs.getD up .nil) (xs.getD p .nil) fun h b =>
            k h (if b then exchange xs p up else xs)

/-- Sorts the elements between two positions, the smaller part of them first. -/
def sortRange (less : Value) :
    (fuel : Nat) → Heap → Array Value → (lo up : Nat) → (Heap → Array Value → Plan) → Plan
  | 0, h, xs, _, _, k => k h xs
  | fuel + 1, h, xs, lo, up, k =>
    if up ≤ lo then k h xs
    else
      orderEnds less h xs lo up fun h xs =>
        if up - lo ≤ 2 then k h xs
        else
          let p := (lo + up) / 2
          partition less (xs.getD p .nil) up (up - lo + 2) h (exchange xs p (up - 1)) lo (up - 1)
            fun h xs p =>
              if p - lo < up - p then
                sortRange less fuel h xs lo (p - 1) fun h xs =>
                  sortRange less fuel h xs (p + 1) up k
              else
                sortRange less fuel h xs (p + 1) up fun h xs =>
                  sortRange less fuel h xs lo (p - 1) k

/-- Sorts a table in place. -/
def sort (h : Heap) (args : List Value) : Plan :=
  .andThen h (checkTable args 1) fun ref =>
    let n := (size h ref).toNat
    if n ≤ 1 then .finish h []
    else
      let less := argument args 2
      let fits := match less with
        | .nil | .function _ => true
        | _ => false
      if !fits then .fail h (typeFault args 2 "function")
      else
        let xs := (List.range n).foldl (fun xs (i : Nat) => xs.push (element h ref (i + 1))) #[.nil]
        sortRange less n h xs 1 n fun h xs =>
          .finish ((List.range n).foldl (fun h (i : Nat) =>
            setElement h ref (i + 1) (xs.getD (i + 1) .nil)) h) []

end Conveyor.Lua.Library
