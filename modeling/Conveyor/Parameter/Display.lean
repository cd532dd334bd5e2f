/-
Which parameters are shown.

A parameter is shown if every parameter that decides about showing it has one of the listed values,
and no parameter that decides about hiding it does. A parameter that is not configured has its
default there, whether it is shown itself or not.
-/
import Conveyor.Json.Equal
import Conveyor.Parameter.Schema

set_option autoImplicit false

namespace Conveyor.Parameter

/-- The name under which rules ask for the version of the node (`VERSION_DEPENDENCY`). -/
def versionName : String := "@version"

/-- What rules look at: the declarations of all parameters, the configured values, and the
version. -/
structure Siblings where
  properties : List Schema
  parameters : Json.Object
  version : Nat

namespace Siblings

/-- A name without slashes in front of it. -/
def plainName (name : String) : String := String.ofList (name.toList.dropWhile (· = '/'))

/-- The value that a rule finds under a name (`dependency_value`). -/
def valueOf (s : Siblings) (name : String) : Json :=
  if name = versionName then Json.ofNat s.version
  else
    match s.parameters.get? (plainName name) with
    | some v => v
    | none =>
      match s.properties.find? (·.name == plainName name) with
      | some p => p.default
      | none => .null

/-- Whether a name has one of the listed values. -/
def hasOneOf (s : Siblings) (rule : String × List Json) : Bool :=
  rule.2.any (Json.equal · (s.valueOf rule.1))

/-- Whether a parameter is shown (`is_displayed`). -/
def shows (s : Siblings) (p : Schema) : Bool :=
  match p.display with
  | none => true
  | some rules => rules.showFor.all s.hasOneOf && !rules.hideFor.any s.hasOneOf

/-- The parameters that are shown, in the order of their declaration (`visible_properties`). -/
def visible (s : Siblings) : List Schema := s.properties.filter s.shows

end Siblings

end Conveyor.Parameter
