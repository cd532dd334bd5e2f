/-
Helper functions of scripts.
-/
import Conveyor.Json.Text
import Conveyor.Time.Instant

set_option autoImplicit false

namespace Conveyor.Script

/-- Why a helper has no result. -/
inductive HelperError where
  | noCondition
  | noFallback
  | notNumber (helper actual : String)
  | noNumbers (helper : String)
  deriving DecidableEq

/-- The text of a helper error. -/
def HelperError.message : HelperError → String
  | noCondition => "$if expects a condition and at least one value"
  | noFallback => "$ifEmpty expects a value and a fallback"
  | notNumber helper actual => "$" ++ helper ++ " expects numbers, got " ++ actual
  | noNumbers helper => "$" ++ helper ++ " expects at least one number"

/-- A function that scripts can call (`HelperFn`). -/
abbrev Helper := List Json → Except HelperError Json

namespace Helper

/-- Null, false, zero and the empty text are false. -/
def truthy : Json → Bool
  | .null => false
  | .bool b => b
  | .num n => n.toFloat != 0.0
  | .str s => !s.isEmpty
  | .arr _ | .obj _ => true

/-- The second argument if the first one is true, the third one otherwise (`helper_if`). -/
def choose : Helper
  | condition :: yes :: rest => .ok (if truthy condition then yes else rest.headD .null)
  | _ => .error .noCondition

/-- The first argument, the second one if the first is empty (`helper_if_empty`). -/
def ifEmpty : Helper
  | value :: fallback :: _ => .ok (if value.isEmpty then fallback else value)
  | _ => .error .noFallback

/-- The entries of arrays and all other arguments. -/
def flattened : List Json → List Json
  | [] => []
  | .arr xs :: rest => xs ++ flattened rest
  | v :: rest => v :: flattened rest

/-- Numbers folded by a choice between two of them. -/
def foldNumbers (name : String) (pick : Float → Float → Float) :
    Option Float → List Json → Except HelperError (Option Float)
  | acc, [] => .ok acc
  | acc, v :: rest =>
    match v.asNumber? with
    | none => .error (.notNumber name v.typeName)
    | some x => foldNumbers name pick (some ((acc.map fun a => pick a x).getD x)) rest

/-- The number that is chosen among all arguments. -/
def extreme (name : String) (pick : Float → Float → Float) : Helper := fun args =>
  match foldNumbers name pick none (flattened args) with
  | .error e => .error e
  | .ok none => .error (.noNumbers name)
  | .ok (some x) => .ok (Json.ofFloat x)

/-- The lesser of two numbers; a number is preferred to NaN. -/
def lesser (x y : Float) : Float := if x.isNaN then y else if y < x then y else x

/-- The greater of two numbers; a number is preferred to NaN. -/
def greater (x y : Float) : Float := if x.isNaN then y else if x < y then y else x

end Helper

/-- Helpers by name, in the order of their names (`HelperSet`). -/
abbrev Helpers := List (String × Helper)

namespace Helpers

/-- The helpers of every sandbox at a moment of time (`HelperSet::with_defaults`). -/
def standard (now : Time.Instant) : Helpers :=
  [("if", Helper.choose),
    ("ifEmpty", Helper.ifEmpty),
    ("max", Helper.extreme "max" Helper.greater),
    ("min", Helper.extreme "min" Helper.lesser),
    ("now", fun _ => .ok (.str now.offsetText)),
    ("today", fun _ => .ok (.str now.midnight.offsetText))]

/-- The helper of a name. -/
def get? (hs : Helpers) (name : String) : Option Helper := hs.lookup name

/-- Adds a helper, or replaces the one of its name (`HelperSet::register`). -/
def register (hs : Helpers) (name : String) (f : Helper) : Helpers :=
  ((name, f) :: hs.filter (·.1 != name)).mergeSort fun a b => a.1 ≤ b.1

end Helpers

end Conveyor.Script
