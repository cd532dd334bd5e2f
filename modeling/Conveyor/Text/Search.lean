/-
Finding a text inside another.
-/

set_option autoImplicit false

namespace Conveyor.Text

/-- Whether a list of characters occurs inside another. -/
def occursIn (needle : List Char) : List Char → Bool
  | [] => needle.isEmpty
  | c :: cs => needle.isPrefixOf (c :: cs) || occursIn needle cs

end Conveyor.Text
