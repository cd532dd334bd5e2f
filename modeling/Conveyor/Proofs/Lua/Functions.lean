/-
The functions that a store holds.

Functions of a program come into the store where the program is executed, and nowhere else: whatever
a function outside the program does, the store holds no function of the program that was not there
before (`Builtin.plan_safe`, `callHost_safe`). Such a function may call the program and go on with
the store that the program leaves, so this is said about each of its calls too (`Plan.Safe`).
-/
import Conveyor.Lua.Machine
import Conveyor.Proofs.Lua.Reading

set_option autoImplicit false

namespace Conveyor.Lua

variable {allowed : String → Nat → Prop}

/-! ## Stores -/

/-- Every function of a program that the store holds has lines that are allowed. -/
def Heap.Placed (allowed : String → Nat → Prop) (h : Heap) : Prop :=
  ∀ f env, Callable.closure f env ∈ h.functions → ∃ chunk, f.Placed allowed chunk

namespace Heap.Placed

variable {h : Heap}

/-- Only functions matter. -/
theorem of_functions {h' : Heap} (placed : h.Placed allowed) (same : h'.functions = h.functions) :
    h'.Placed allowed := by
  unfold Heap.Placed
  rw [same]
  exact placed

theorem updateTable (placed : h.Placed allowed) (ref : Nat) (f : Table → Table) :
    (h.updateTable ref f).Placed allowed :=
  placed.of_functions rfl

theorem newTable (placed : h.Placed allowed) (t : Table) : (h.newTable t).1.Placed allowed :=
  placed.of_functions rfl

theorem setField (placed : h.Placed allowed) (ref : Nat) (name : String) (v : Value) :
    (h.setField ref name v).Placed allowed :=
  placed.of_functions rfl

theorem newCell (placed : h.Placed allowed) (v : Value) : (h.newCell v).1.Placed allowed :=
  placed.of_functions rfl

theorem newCells (placed : h.Placed allowed) (env : List Nat) (vs : List Value) :
    (h.newCells env vs).1.Placed allowed := by
  induction vs generalizing h env with
  | nil => exact placed
  | cons v vs ih => exact ih (h := (h.newCell v).1) (placed.newCell v) (h.cells.size :: env)

/-- A function that is added. -/
theorem newFunction {c : Callable} (placed : h.Placed allowed)
    (fits : ∀ f env, c = .closure f env → ∃ chunk, f.Placed allowed chunk) :
    (h.newFunction c).1.Placed allowed := by
  intro f env mem
  obtain old | new := Array.mem_push.1 mem
  · exact placed f env old
  · exact fits f env new.symm

/-- A function that is replaced. -/
theorem setFunction {c : Callable} (placed : h.Placed allowed) (ref : Nat)
    (fits : ∀ f env, c = .closure f env → ∃ chunk, f.Placed allowed chunk) :
    Heap.Placed allowed { h with functions := h.functions.setIfInBounds ref c } := by
  intro f env mem
  obtain old | new := Array.mem_or_eq_of_mem_setIfInBounds mem
  · exact placed f env old
  · exact fits f env new.symm

end Heap.Placed

mutual

/-- Putting a JSON value into the store adds no function. -/
theorem functions_inject (h : Heap) (x : Json) : (inject h x).1.functions = h.functions := by
  cases x with
  | null | bool _ | num _ | str _ => rfl
  | arr xs => exact functions_injectItems h _ 1 xs
  | obj o => exact functions_injectMembers h _ o

theorem functions_injectItems (h : Heap) (t : Table) (n : Nat) (xs : List Json) :
    (injectItems h t n xs).1.functions = h.functions := by
  cases xs with
  | nil => rfl
  | cons x xs =>
    exact (functions_injectItems _ _ _ xs).trans (functions_inject h x)

theorem functions_injectMembers (h : Heap) (t : Table) (o : List (String × Json)) :
    (injectMembers h t o).1.functions = h.functions := by
  cases o with
  | nil => rfl
  | cons p o => exact (functions_injectMembers _ _ o).trans (functions_inject h p.2)

end

/-! ## Plans -/

/-- From a store whose functions have lines that are allowed, to such a store, whatever the
functions that are called do. -/
def Plan.Safe (allowed : String → Nat → Prop) : Plan → Prop
  | .finish h _ => h.Placed allowed
  | .fail h _ => h.Placed allowed
  | .call h _ _ after =>
    h.Placed allowed ∧ ∀ (h' : Heap) (vs : List Value), h'.Placed allowed →
      (after h' vs).Safe allowed

theorem Plan.safe_ite {c : Prop} [Decidable c] {p q : Plan} (yes : p.Safe allowed)
    (no : q.Safe allowed) : (if c then p else q).Safe allowed := by
  split
  · exact yes
  · exact no

section Plans

variable {h : Heap} (placed : h.Placed allowed)

include placed

theorem Plan.safe_ofExcept (r : Except Fault (List Value)) : (Plan.ofExcept h r).Safe allowed := by
  cases r <;> exact placed

theorem Plan.safe_andThen {α : Type} {r : Except Fault α} {k : α → Plan}
    (later : ∀ a, (k a).Safe allowed) : (Plan.andThen h r k).Safe allowed := by
  cases r with
  | ok a => exact later a
  | error e => exact placed

theorem safe_indexed (object key : Value) {k : Heap → Value → Plan}
    (later : ∀ (h' : Heap) v, h'.Placed allowed → (k h' v).Safe allowed) :
    (indexed h object key k).Safe allowed := by
  unfold indexed
  split
  · exact later h _ placed
  · exact ⟨placed, fun h' vs placed' => later h' _ placed'⟩
  · exact placed

/-! ## Basic functions -/

namespace Library

theorem safe_assertion (args : List Value) : (assertion h args).Safe allowed := by
  unfold assertion
  split
  · exact placed
  · exact Plan.safe_andThen placed fun _ => placed

theorem safe_raise (args : List Value) : (raise h args).Safe allowed :=
  Plan.safe_andThen placed fun _ => placed

theorem safe_nextEntry (args : List Value) : (nextEntry h args).Safe allowed := by
  refine Plan.safe_andThen placed fun ref => ?_
  split <;> exact placed

theorem safe_pairs (args : List Value) : (pairs h args).Safe allowed :=
  Plan.safe_andThen placed fun _ => placed

theorem safe_ipairs (args : List Value) : (ipairs h args).Safe allowed :=
  Plan.safe_andThen placed fun _ => placed

theorem safe_ipairsStep (args : List Value) : (ipairsStep h args).Safe allowed := by
  refine Plan.safe_andThen placed fun i => safe_indexed placed _ _ fun h' v placed' => ?_
  split <;> exact placed'

theorem safe_select (args : List Value) : (select h args).Safe allowed := by
  have chosen (n : Nat) : (select.chosen h args n).Safe allowed := by
    exact Plan.safe_andThen placed fun i => Plan.safe_ite placed placed
  unfold select
  simp only
  split
  · exact Plan.safe_ite placed (chosen _)
  · exact chosen _

theorem safe_typeOf (args : List Value) : (typeOf h args).Safe allowed :=
  Plan.safe_andThen placed fun _ => placed

theorem safe_toText (args : List Value) : (toText h args).Safe allowed :=
  Plan.safe_andThen placed fun _ => placed

theorem safe_toNumber (args : List Value) : (toNumber h args).Safe allowed := by
  unfold toNumber
  split
  · split
    · exact placed
    · exact Plan.safe_andThen placed fun _ => placed
  · refine Plan.safe_andThen placed fun base => ?_
    split
    · split
      · split <;> exact placed
      · exact placed
    · exact placed

theorem safe_setMetatable (args : List Value) : (setMetatable h args).Safe allowed := by
  refine Plan.safe_andThen placed fun ref => ?_
  split
  · exact placed.updateTable _ _
  · exact placed.updateTable _ _
  · exact placed

theorem safe_getMetatable (args : List Value) : (getMetatable h args).Safe allowed := by
  refine Plan.safe_andThen placed fun v => ?_
  split
  · split <;> exact placed
  · exact placed

theorem safe_rawGet (args : List Value) : (Library.rawGet h args).Safe allowed :=
  Plan.safe_andThen placed fun _ => Plan.safe_andThen placed fun _ => placed

theorem safe_rawSet (args : List Value) : (rawSet h args).Safe allowed := by
  refine Plan.safe_andThen placed fun ref => Plan.safe_andThen placed fun k =>
    Plan.safe_andThen placed fun v => ?_
  split
  · exact placed.updateTable _ _
  · exact placed

theorem safe_rawLength (args : List Value) : (rawLength h args).Safe allowed := by
  unfold rawLength
  split <;> exact placed

theorem safe_rawEqual (args : List Value) : (rawEqual h args).Safe allowed :=
  Plan.safe_andThen placed fun _ => Plan.safe_andThen placed fun _ => placed

/-! ## Functions on texts -/

/-- An iterator over matches is no function of a program. -/
theorem safe_matchesOf (args : List Value) : (matchesOf h args).Safe allowed :=
  Plan.safe_andThen placed fun _ => Plan.safe_andThen placed fun _ =>
    Plan.safe_andThen placed fun _ =>
    placed.newFunction nofun

theorem safe_nextMatch (ref : Nat) (s p : ByteArray) (start : Nat) (last : Option Nat) :
    (nextMatch h ref s p start last).Safe allowed := by
  refine Plan.safe_andThen placed fun r => ?_
  split
  · exact placed
  · exact Plan.safe_andThen placed fun vs => placed.setFunction ref nofun

theorem safe_replacement (s : ByteArray) (start : Nat) (found : Pattern.Found) (repl : Value)
    {k : Heap → ByteArray → Plan}
    (later : ∀ (h' : Heap) t, h'.Placed allowed → (k h' t).Safe allowed) :
    (replacement h s start found repl k).Safe allowed := by
  unfold replacement
  split
  · refine Plan.safe_andThen placed fun c => safe_indexed placed _ _ fun h' v placed' => ?_
    exact Plan.safe_andThen placed' fun t => later h' t placed'
  · refine Plan.safe_andThen placed fun vs => ⟨placed, fun h' results placed' => ?_⟩
    exact Plan.safe_andThen placed' fun t => later h' t placed'
  · exact Plan.safe_andThen placed fun t => later h t placed

omit placed in
theorem safe_replaceFrom (s : ByteArray) (pattern : List UInt8) (anchored : Bool) (repl : Value)
    (fuel : Nat) {h : Heap} (placed : h.Placed allowed) (pos limit n : Nat) (last : Option Nat)
    (out : ByteArray) :
    (replaceFrom s pattern anchored repl fuel h pos limit n last out).Safe allowed := by
  -- The induction is on the fuel. The heap changes only where a replacement is asked for, which
  -- keeps it placed.
  induction fuel generalizing h pos n last out with
  | zero => exact placed
  | succ fuel ih =>
    unfold replaceFrom
    split
    · exact placed
    · split
      · exact placed
      · split
        · refine safe_replacement placed _ _ _ _ fun h' t placed' => ?_
          split
          · exact placed'
          · exact ih placed' _ _ _ _
        · split
          · simp only
            split
            · exact placed
            · exact ih placed _ _ _ _
          · exact placed

theorem safe_replaceAll (args : List Value) : (replaceAll h args).Safe allowed := by
  refine Plan.safe_andThen placed fun s => Plan.safe_andThen placed fun p =>
    Plan.safe_andThen placed fun limit => ?_
  exact Plan.safe_ite placed (safe_replaceFrom _ _ _ _ _ placed _ _ _ _ _)

/-! ## Functions on tables -/

theorem placed_setElement (ref : Nat) (i : Int) (v : Value) :
    (setElement h ref i v).Placed allowed :=
  placed.updateTable _ _

omit placed in
theorem placed_shiftUp (ref n : Nat) {h : Heap} (placed : h.Placed allowed) (last : Int) :
    (shiftUp ref n h last).Placed allowed := by
  induction n generalizing h last with
  | zero => exact placed
  | succ n ih => exact ih (placed_setElement placed _ _ _) _

omit placed in
theorem placed_shiftDown (ref n : Nat) {h : Heap} (placed : h.Placed allowed) (first : Int) :
    (shiftDown ref n h first).Placed allowed := by
  induction n generalizing h first with
  | zero => exact placed
  | succ n ih => exact ih (placed_setElement placed _ _ _) _

/-- Elements that are set one after another. -/
theorem placed_foldl {α : Type} (ks : List α) (ref : Nat) (i : α → Int) (v : Heap → α → Value) :
    (ks.foldl (fun h k => setElement h ref (i k) (v h k)) h).Placed allowed := by
  induction ks generalizing h with
  | nil => exact placed
  | cons k ks ih => exact ih (placed_setElement placed _ _ _)

theorem safe_insertElement (args : List Value) : (insertElement h args).Safe allowed := by
  refine Plan.safe_andThen placed fun ref => ?_
  simp only
  split
  · exact placed_setElement placed _ _ _
  · refine Plan.safe_andThen placed fun pos => ?_
    exact Plan.safe_ite (placed_setElement (placed_shiftUp _ _ placed _) _ _ _) placed
  · exact placed

theorem safe_removeElement (args : List Value) : (removeElement h args).Safe allowed := by
  refine Plan.safe_andThen placed fun ref => Plan.safe_andThen placed fun pos => ?_
  exact Plan.safe_ite (placed_setElement (placed_shiftDown _ _ placed _) _ _ _) placed

theorem safe_packed (args : List Value) : (packed h args).Safe allowed := placed.newTable _

theorem safe_moveElements (args : List Value) : (moveElements h args).Safe allowed := by
  refine Plan.safe_andThen placed fun source => Plan.safe_andThen placed fun first =>
    Plan.safe_andThen placed fun last =>
    Plan.safe_andThen placed fun target => Plan.safe_andThen placed fun ref => ?_
  exact placed_foldl placed _ _ _ _

/-! ## Sorting -/

theorem safe_before (less a b : Value) {k : Heap → Bool → Plan}
    (later : ∀ (h' : Heap) r, h'.Placed allowed → (k h' r).Safe allowed) :
    (before less h a b k).Safe allowed := by
  unfold before
  split
  · split
    · exact later h _ placed
    · exact placed
  · exact ⟨placed, fun h' vs placed' => later h' _ placed'⟩

omit placed in
theorem safe_scanUp (less pivot : Value) (xs : Array Value) (up fuel : Nat) {h : Heap}
    (placed : h.Placed allowed) (i : Nat) {k : Heap → Nat → Plan}
    (later : ∀ (h' : Heap) i, h'.Placed allowed → (k h' i).Safe allowed) :
    (scanUp less pivot xs up fuel h i k).Safe allowed := by
  induction fuel generalizing h i with
  | zero => exact placed
  | succ fuel ih =>
    refine safe_before placed _ _ _ fun h' r placed' => ?_
    split
    · split
      · exact placed'
      · exact ih placed' _
    · exact later h' _ placed'

omit placed in
theorem safe_scanDown (less pivot : Value) (xs : Array Value) (i fuel : Nat) {h : Heap}
    (placed : h.Placed allowed) (j : Nat) {k : Heap → Nat → Plan}
    (later : ∀ (h' : Heap) i, h'.Placed allowed → (k h' i).Safe allowed) :
    (scanDown less pivot xs i fuel h j k).Safe allowed := by
  induction fuel generalizing h j with
  | zero => exact placed
  | succ fuel ih =>
    refine safe_before placed _ _ _ fun h' r placed' => ?_
    split
    · split
      · exact placed'
      · exact ih placed' _
    · exact later h' _ placed'

omit placed in
theorem safe_partition (less pivot : Value) (up fuel : Nat) {h : Heap} (placed : h.Placed allowed)
    (xs : Array Value) (i j : Nat) {k : Heap → Array Value → Nat → Plan}
    (later : ∀ (h' : Heap) xs i, h'.Placed allowed → (k h' xs i).Safe allowed) :
    (partition less pivot up fuel h xs i j k).Safe allowed := by
  induction fuel generalizing h xs i j with
  | zero => exact placed
  | succ fuel ih =>
    refine safe_scanUp _ _ _ _ _ placed _ fun h' i placed' =>
      safe_scanDown _ _ _ _ _ placed' _ fun h'' j placed'' => ?_
    split
    · exact later h'' _ _ placed''
    · exact ih placed'' _ _ _

theorem safe_orderEnds (less : Value) (xs : Array Value) (lo up : Nat)
    {k : Heap → Array Value → Plan}
    (later : ∀ (h' : Heap) xs, h'.Placed allowed → (k h' xs).Safe allowed) :
    (orderEnds less h xs lo up k).Safe allowed := by
  refine safe_before placed _ _ _ fun h₁ first placed₁ => ?_
  simp only
  split
  · exact later h₁ _ placed₁
  · refine safe_before placed₁ _ _ _ fun h₂ second placed₂ => ?_
    split
    · exact later h₂ _ placed₂
    · exact safe_before placed₂ _ _ _ fun h₃ third placed₃ => later h₃ _ placed₃

omit placed in
theorem safe_sortRange (less : Value) (fuel : Nat) {h : Heap} (placed : h.Placed allowed)
    (xs : Array Value) (lo up : Nat) {k : Heap → Array Value → Plan}
    (later : ∀ (h' : Heap) xs, h'.Placed allowed → (k h' xs).Safe allowed) :
    (sortRange less fuel h xs lo up k).Safe allowed := by
  induction fuel generalizing h xs lo up k with
  | zero => exact later h xs placed
  | succ fuel ih =>
    unfold sortRange
    split
    · exact later h xs placed
    · refine safe_orderEnds placed _ _ _ _ fun h₁ xs placed₁ => ?_
      split
      · exact later h₁ xs placed₁
      · refine safe_partition _ _ _ _ placed₁ _ _ _ fun h₂ xs p placed₂ => ?_
        split
        · exact ih placed₂ _ _ _ fun h₃ xs placed₃ => ih placed₃ _ _ _ later
        · exact ih placed₂ _ _ _ fun h₃ xs placed₃ => ih placed₃ _ _ _ later

theorem safe_sort (args : List Value) : (Library.sort h args).Safe allowed := by
  refine Plan.safe_andThen placed fun ref => ?_
  refine Plan.safe_ite placed (Plan.safe_ite placed ?_)
  exact safe_sortRange _ _ placed _ _ _ fun h' xs placed' => placed_foldl placed' _ _ _ _

end Library

open Library in
/-- **No function of a program comes from a built-in function.** -/
theorem Builtin.safe_plan (b : Builtin) (args : List Value) : (b.plan h args).Safe allowed := by
  -- Functions that can bring one in are treated one by one; the others give out values that they
  -- were given or made.
  cases b
  case assert => exact safe_assertion placed args
  case error => exact safe_raise placed args
  case ipairs => exact safe_ipairs placed args
  case ipairsStep => exact safe_ipairsStep placed args
  case next => exact safe_nextEntry placed args
  case pairs => exact safe_pairs placed args
  case select => exact safe_select placed args
  case tonumber => exact safe_toNumber placed args
  case tostring => exact safe_toText placed args
  case type => exact safe_typeOf placed args
  case setmetatable => exact safe_setMetatable placed args
  case getmetatable => exact safe_getMetatable placed args
  case rawequal => exact safe_rawEqual placed args
  case rawget => exact safe_rawGet placed args
  case rawlen => exact safe_rawLength placed args
  case rawset => exact safe_rawSet placed args
  case gmatch => exact safe_matchesOf placed args
  case gsub => exact safe_replaceAll placed args
  case insert => exact safe_insertElement placed args
  case move => exact safe_moveElements placed args
  case pack => exact safe_packed placed args
  case remove => exact safe_removeElement placed args
  case sort => exact safe_sort placed args
  case print | pcall | unavailable => exact placed
  all_goals exact Plan.safe_ofExcept placed _

/-- A function of the host puts values into the store, and no function of a program. -/
theorem safe_callHost (host : Host) (name : String) (args : List Value) :
    (callHost host h name args).Safe allowed := by
  unfold callHost
  split
  · exact placed
  · split
    · exact placed
    · split
      · exact placed.of_functions (functions_inject h _)
      · exact placed

end Plans

end Conveyor.Lua
