/-
Equality of JSON values.

Numbers are compared as floats, so `1` equals `1.0`. Arrays compare entry by entry. Objects compare
without regard to order: they are equal when they have as many members as each other and every
member of the first is found, with an equal value, in the second.
-/
import Conveyor.Json.Value

set_option autoImplicit false

namespace Conveyor.Json

mutual

/-- Equality of values (`json_equal`). -/
def equal : Json → Json → Bool
  | null, null => true
  | bool a, bool b => a == b
  | num a, num b => a.toFloat == b.toFloat
  | str a, str b => a == b
  | arr xs, arr ys => equalItems xs ys
  | obj a, obj b => a.length == b.length && includedIn a b
  | _, _ => false

/-- Equality of arrays, entry by entry. -/
def equalItems : List Json → List Json → Bool
  | [], [] => true
  | x :: xs, y :: ys => equal x y && equalItems xs ys
  | _, _ => false

/-- Every member on the left has an equal one of its name on the right. -/
def includedIn : List (String × Json) → Object → Bool
  | [], _ => true
  | (k, v) :: rest, o =>
    (match o.get? k with
      | some w => equal v w
      | none => false) && includedIn rest o

end

end Conveyor.Json
