/-
Values of the script language.

Strings are byte strings. Integers have 64 bits and wrap, floats are doubles, and the two are
different numbers of one type. Tables and functions are references: a value holds where the table or
function lives, so two values are the same table exactly when their numbers are equal. `null` stands
for an explicit JSON null and is different from `nil`, which is the absence of a value.
-/

set_option autoImplicit false

namespace Conveyor.Lua

/-- A value of the script language. -/
inductive Value where
  | nil
  | bool (b : Bool)
  | int (i : Int64)
  | float (x : Float)
  | str (s : ByteArray)
  | null
  | table (ref : Nat)
  | function (ref : Nat)
  deriving Inhabited

namespace Value

/-- A text as a value. -/
def text (s : String) : Value := .str s.toUTF8

/-- Everything but `nil` and `false` counts as true. -/
def truthy : Value → Bool
  | nil => false
  | bool b => b
  | _ => true

/-- The name of a value's type. -/
def typeName : Value → String
  | nil => "nil"
  | bool _ => "boolean"
  | int _ | float _ => "number"
  | str _ => "string"
  | null => "userdata"
  | table _ => "table"
  | function _ => "function"

/-- Absence. -/
def isNil : Value → Bool
  | nil => true
  | _ => false

end Value

/-- The first of some values, `nil` if there is none. -/
def first : List Value → Value
  | [] => .nil
  | v :: _ => v

/-! ## Byte order -/

/-- Compares byte strings from a position on. -/
def compareFrom (a b : ByteArray) : (fuel i : Nat) → Ordering
  | 0, _ => .eq
  | fuel + 1, i =>
    if ha : i < a.size then
      if hb : i < b.size then
        if a[i] < b[i] then .lt else if b[i] < a[i] then .gt else compareFrom a b fuel (i + 1)
      else .gt
    else if i < b.size then .lt else .eq

/-- The order of byte strings: by the first byte that differs, a beginning before the whole. -/
def compareBytes (a b : ByteArray) : Ordering := compareFrom a b (a.size + 1) 0

end Conveyor.Lua
