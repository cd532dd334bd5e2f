/-
Functions that are not written in the script language.

Such a function is a plan: it finishes with results, fails, or calls a function of the program and
goes on with what that returns. The machine carries plans out, so a built-in function can call back
into the program without being part of the machine. The plan also says what a failure is about;
where it happened, and under which name the function was called, is added by the machine.
-/
import Conveyor.Lua.Exchange
import Conveyor.Lua.Operate

set_option autoImplicit false

namespace Conveyor.Lua

/-- Why a function fails. -/
inductive Fault where
  /-- An argument is not what the function takes. -/
  | argument (index : Nat) (problem : String)
  /-- The caller is told its own position. -/
  | located (message : String)
  /-- Nobody's position is told. -/
  | plain (message : String)
  /-- A value is raised; a text is told the position of the caller so many levels up. -/
  | raised (v : Value) (level : Int)
  /-- A function of the host failed. -/
  | host (message : String)

/-- What a function does next. -/
inductive Plan where
  | finish (h : Heap) (results : List Value)
  | fail (h : Heap) (fault : Fault)
  | call (h : Heap) (f : Value) (args : List Value) (after : Heap → List Value → Plan)

namespace Plan

/-- Finishes with results, or fails. -/
def ofExcept (h : Heap) : Except Fault (List Value) → Plan
  | .ok vs => finish h vs
  | .error e => fail h e

/-- Goes on with a value, or fails. -/
@[inline] def andThen {α : Type} (h : Heap) (r : Except Fault α) (k : α → Plan) : Plan :=
  match r with
  | .ok a => k a
  | .error e => fail h e

end Plan

/-- Looks a key up, asking a handler if there is one. -/
def indexed (h : Heap) (object key : Value) (k : Heap → Value → Plan) : Plan :=
  match h.lookup maxChain object key with
  | .found v => k h v
  | .ask f object key => .call h f [object, key] fun h vs => k h (first vs)
  | .notIndexable o => .fail h (.plain ("attempt to index a " ++ o.typeName ++ " value"))

/-! ## Arguments -/

/-- An argument, counted from one. -/
def argument? (args : List Value) (i : Nat) : Option Value := args[i - 1]?

/-- An argument, `nil` if it is missing. -/
def argument (args : List Value) (i : Nat) : Value := (argument? args i).getD .nil

/-- How messages name the type of an argument. -/
def argumentType (args : List Value) (i : Nat) : String :=
  match argument? args i with
  | none => "no value"
  | some .null => "light userdata"
  | some v => v.typeName

/-- An argument is of another type. -/
def typeFault (args : List Value) (i : Nat) (expected : String) : Fault :=
  .argument i (expected ++ " expected, got " ++ argumentType args i)

/-- Whether an argument is missing or `nil`. -/
def isAbsent (args : List Value) (i : Nat) : Bool := (argument args i).isNil

/-- An argument must be given, if only as `nil`. -/
def checkAny (args : List Value) (i : Nat) : Except Fault Value :=
  match argument? args i with
  | some v => .ok v
  | none => .error (.argument i "value expected")

/-- An integer, a float that is whole, or a text that spells one. -/
def checkInt (args : List Value) (i : Nat) : Except Fault Int64 :=
  match (argument args i).number? with
  | some n =>
    match n.int? with
    | some k => .ok k
    | none => .error (.argument i "number has no integer representation")
  | none => .error (typeFault args i "number")

/-- An integer, or a default for a missing one. -/
def optInt (args : List Value) (i : Nat) (default : Int64) : Except Fault Int64 :=
  if isAbsent args i then .ok default else checkInt args i

/-- A number, or a text that spells one. -/
def checkFloat (args : List Value) (i : Nat) : Except Fault Float :=
  match (argument args i).number?.bind Value.float? with
  | some x => .ok x
  | none => .error (typeFault args i "number")

/-- A text, or the text of a number. -/
def checkText (args : List Value) (i : Nat) : Except Fault ByteArray :=
  match (argument args i).bytes? with
  | some s => .ok s
  | none => .error (typeFault args i "string")

/-- A text, or a default for a missing one. -/
def optText (args : List Value) (i : Nat) (default : ByteArray) : Except Fault ByteArray :=
  if isAbsent args i then .ok default else checkText args i

/-- A table. -/
def checkTable (args : List Value) (i : Nat) : Except Fault Nat :=
  match argument args i with
  | .table ref => .ok ref
  | _ => .error (typeFault args i "table")

/-- A condition on an argument. -/
def checkThat (b : Bool) (i : Nat) (problem : String) : Except Fault Unit :=
  if b then .ok () else .error (.argument i problem)

/-! ## Functions as values -/

/-- The built-in functions; the place of each in the list is its place in every store. -/
def builtins : List Builtin :=
  [.assert, .error, .ipairs, .ipairsStep, .next, .pairs, .select, .tonumber, .tostring,
    .type, .warn, .setmetatable, .getmetatable, .rawequal, .rawget, .rawlen, .rawset, .print,
    .pcall, .unavailable, .byte, .char, .find, .format, .gmatch, .gsub, .len, .lower, .match, .rep,
    .reverse, .sub, .upper, .concat, .insert, .move, .pack, .remove, .sort, .unpack,
    .abs, .ceil, .cos, .exp, .floor, .fmod, .log, .max, .min, .modf, .sin, .sqrt, .tan, .tointeger,
    .mathType, .ult, .utf8char, .codepoint, .utf8len, .offset]

/-- A built-in function as a value. -/
def builtinValue (b : Builtin) : Value := .function (builtins.findIdx (· == b))

/-- Hexadecimal digits of a number. -/
def hexText (n : Nat) (capital : Bool) : String :=
  let digit (d : Nat) : Char :=
    if d < 10 then Char.ofNat (48 + d) else Char.ofNat ((if capital then 55 else 87) + d)
  if n = 0 then "0" else String.ofList ((digits n n []).map digit)
where
  digits : (fuel n : Nat) → List Nat → List Nat
    | 0, _, acc => acc
    | fuel + 1, n, acc => if n = 0 then acc else digits fuel (n / 16) (n % 16 :: acc)

/-- The text of a reference. -/
def referenceText (kind : String) (ref : Nat) : String :=
  kind ++ ": 0x" ++ Decimal.padZeros 12 (hexText (64 * ref + 64) false)

/-- The text of a value. -/
def textOfValue : Value → ByteArray
  | .nil => "nil".toUTF8
  | .bool b => (if b then "true" else "false").toUTF8
  | .int i => (Numeral.intText i).toUTF8
  | .float x => (Numeral.floatText x).toUTF8
  | .str s => s
  | .null => "userdata: (nil)".toUTF8
  | .table ref => (referenceText "table" ref).toUTF8
  | .function ref => (referenceText "function" ref).toUTF8

end Conveyor.Lua
