/-
Filters: conditions joined by `and` or `or`.

Every condition is decided, in order, before they are joined, so a condition that fails is an error
even where the others decide the outcome. A caller may ask for failing conditions to count as false
instead. An unknown way of joining is an error either way, and is looked at first.
-/
import Conveyor.Filter.Operator
import Conveyor.Json.Decode

set_option autoImplicit false

namespace Conveyor

namespace Filter

/-- Which comparison a condition makes (`FilterOperator`). -/
structure Operator where
  kind : String
  operation : String
  /-- The operation takes no right operand; a hint for editors only. -/
  singleValue : Bool

/-- One comparison of two values (`FilterCondition`). -/
structure Condition where
  id : Option String
  left : Json
  right : Json
  operator : Operator

end Filter

/-- Conditions, whether letters' case counts, and the word that joins the conditions (`FilterSpec`
and `FilterOptions`). -/
structure Filter where
  caseSensitive : Bool
  conditions : List Filter.Condition
  combinator : String

namespace Filter

/-! ## Errors -/

/-- Why a filter could not be decided (`FilterError`). -/
inductive Error where
  | condition (index itemIndex : Nat) (source : ConditionError)
  | unknownCombinator (name : String)

/-- The text of an error. -/
def Error.message : Error → String
  | condition index itemIndex source =>
    "Condition " ++ Decimal.natText index ++ " failed for item " ++ Decimal.natText itemIndex ++
      ": " ++ source.message
  | unknownCombinator name => "Unknown combinator '" ++ name ++ "', expected 'and' or 'or'"

/-! ## Decisions -/

/-- Decides one condition (`evaluate_condition`). -/
def Condition.decide (c : Condition) (caseSensitive : Bool) : Except ConditionError Bool :=
  evaluate c.operator.kind c.operator.operation c.left c.right caseSensitive

/-- The ways of joining. -/
inductive Combinator where
  | all
  | any

/-- The combinator of a word. -/
def Combinator.ofName? : String → Option Combinator
  | "and" => some .all
  | "or" => some .any
  | _ => none

/-- Joins outcomes. -/
def Combinator.join : Combinator → List Bool → Bool
  | all, bs => bs.all id
  | any, bs => bs.any id

/-- The outcomes of conditions numbered from `index` on; the first that fails is reported, unless
failing conditions are tolerated and count as false. -/
def outcomes (caseSensitive : Bool) (itemIndex : Nat) (tolerant : Bool) :
    Nat → List Condition → Except Error (List Bool)
  | _, [] => .ok []
  | index, c :: cs =>
    match c.decide caseSensitive with
    | .ok b => (outcomes caseSensitive itemIndex tolerant (index + 1) cs).map (b :: ·)
    | .error e =>
      if tolerant then (outcomes caseSensitive itemIndex tolerant (index + 1) cs).map (false :: ·)
      else .error (.condition index itemIndex e)

/-- Decides a filter for the item of an index (`evaluate_filter`). -/
def decide (f : Filter) (itemIndex : Nat) (tolerant : Bool) : Except Error Bool :=
  match Combinator.ofName? f.combinator with
  | none => .error (.unknownCombinator f.combinator)
  | some c => (outcomes f.caseSensitive itemIndex tolerant 0 f.conditions).map c.join

/-! ## As JSON -/

/-- A value that looks like a filter: an object with an array of conditions
(`FilterSpec::matches_shape`). -/
def hasShape (v : Json) : Bool :=
  match v.member? "conditions" with
  | some (.arr _) => true
  | _ => false

open Json in
/-- Reads an operator. -/
def Operator.decode (v : Json) : Option Operator := do
  let [kind, operation, single] ← fields ["type", "operation", "singleValue"] v | none
  some ⟨← kind.required Decode.string, ← operation.required Decode.string,
    ← single.orElse Decode.bool false⟩

open Json in
/-- Reads a condition. -/
def Condition.decode (v : Json) : Option Condition := do
  let [id, left, right, operator] ← fields ["id", "leftValue", "rightValue", "operator"] v | none
  some ⟨← id.optional Decode.string, ← left.orElse Decode.any .null,
    ← right.orElse Decode.any .null, ← operator.required Operator.decode⟩

open Json in
/-- Reads the options of a filter. -/
def decodeOptions (v : Json) : Option Bool := do
  let [caseSensitive] ← fields ["caseSensitive"] v | none
  caseSensitive.orElse Decode.bool true

open Json in
/-- Reads a filter. -/
def decode (v : Json) : Option Filter := do
  let [options, conditions, combinator] ← fields ["options", "conditions", "combinator"] v | none
  some ⟨← options.orElse decodeOptions true,
    ← conditions.orElse (Decode.list Condition.decode) [],
    ← combinator.orElse Decode.string "and"⟩

/-- Writes an operator. -/
def Operator.encode (o : Operator) : Json :=
  .obj [("type", .str o.kind), ("operation", .str o.operation),
    ("singleValue", .bool o.singleValue)]

/-- Writes a condition. -/
def Condition.encode (c : Condition) : Json :=
  .obj (Json.memberIf "id" (c.id.map .str) ++
    [("leftValue", c.left), ("rightValue", c.right), ("operator", c.operator.encode)])

/-- Writes a filter. -/
def encode (f : Filter) : Json :=
  .obj [("options", .obj [("caseSensitive", .bool f.caseSensitive)]),
    ("conditions", .arr (f.conditions.map Condition.encode)), ("combinator", .str f.combinator)]

end Filter

end Conveyor
