/-
The comparison operators of conditions.

Every kind of value has a table of operations. A table is a list of tests, and the negated
operations (`notEquals`, `notContains`, …) are the same tests read the other way round, so that an
operation and its negation see the same operands and fail alike. Operands are coerced to the kind
first; a value that cannot be coerced is an error.
-/
import Conveyor.Json.Equal
import Conveyor.Json.Text
import Conveyor.Regex.Match
import Conveyor.Text.LowerCase
import Conveyor.Text.Search
import Conveyor.Time.Reader

set_option autoImplicit false

namespace Conveyor.Filter

/-! ## Errors -/

/-- Why a condition could not be decided. -/
inductive ConditionError where
  /-- The value cannot be read as the expected kind. -/
  | wrongType (value : Json) (expected : String)
  | unknownOperation (kind operation : String)
  | invalidPattern (pattern message : String)

/-- How an error shows the value it complains about. -/
def shown : Json → String
  | .str s => s
  | v => v.render ++ " (" ++ v.typeName ++ ")"

/-- The text of an error. -/
def ConditionError.message : ConditionError → String
  | wrongType v expected => "Wrong type: '" ++ shown v ++ "' is not a " ++ expected
  | unknownOperation kind operation =>
    "Unknown operation '" ++ operation ++ "' for type '" ++ kind ++ "'"
  | invalidPattern pattern message => "Invalid regex '" ++ pattern ++ "': " ++ message

/-- A test, or its negation. -/
structure Signed (α : Type) where
  test : α
  negated : Bool

/-- The outcome of a signed test from the outcome of the test. -/
def Signed.decide {α : Type} (s : Signed α) (outcome : Bool) : Bool := outcome != s.negated

/-! ## Coercions -/

/-- A value as a string; null is empty (`coerce_string`). -/
def toText : Json → Except ConditionError String
  | .arr xs => .error (.wrongType (.arr xs) "string")
  | .obj o => .error (.wrongType (.obj o) "string")
  | v => .ok v.plainText

/-- A value as a number (`coerce_number`). -/
def toNumber (v : Json) : Except ConditionError Float :=
  match v.asNumber? with
  | some x => .ok x
  | none => .error (.wrongType v "number")

/-- Two strings that differ in ASCII case only. -/
def sameIgnoringCase (a b : String) : Bool := a.toList.map Char.toLower == b.toList.map Char.toLower

/-- A value as a boolean; the words may be in any case (`coerce_bool`). -/
def toBool (v : Json) : Except ConditionError Bool :=
  match v with
  | .bool b => .ok b
  | .str s =>
    if sameIgnoringCase s "true" then .ok true
    else if sameIgnoringCase s "false" then .ok false
    else .error (.wrongType v "boolean")
  | _ => .error (.wrongType v "boolean")

/-- Numbers from here on count milliseconds, smaller ones seconds (`EPOCH_MILLIS_THRESHOLD`). -/
def millisThreshold : Float := 1e11

/-- The moment a number of seconds or milliseconds from the start of 1970. -/
def instantOfNumber? (x : Float) : Option Time.Instant :=
  let ms := if millisThreshold ≤ x.abs then x else x * 1000.0
  (Decimal.Binary.ofFloat? ms).bind fun b => Time.Instant.ofMillis? b.trunc

/-- A value as a moment (`coerce_date_time`). -/
def toInstant (v : Json) : Except ConditionError Time.Instant :=
  let found := match v with
    | .str s => Time.Instant.read? s
    | .num n => instantOfNumber? n.toFloat
    | _ => none
  match found with
  | some t => .ok t
  | none => .error (.wrongType v "dateTime")

/-! ## Texts -/

/-- Tests of texts. -/
inductive TextTest where
  | equals
  | contains
  | startsWith
  | endsWith
  | empty
  | pattern

/-- The operations on texts. -/
def TextTest.ofName? : String → Option (Signed TextTest)
  | "equals" => some ⟨.equals, false⟩
  | "notEquals" => some ⟨.equals, true⟩
  | "contains" => some ⟨.contains, false⟩
  | "notContains" => some ⟨.contains, true⟩
  | "startsWith" => some ⟨.startsWith, false⟩
  | "notStartsWith" => some ⟨.startsWith, true⟩
  | "endsWith" => some ⟨.endsWith, false⟩
  | "notEndsWith" => some ⟨.endsWith, true⟩
  | "empty" => some ⟨.empty, false⟩
  | "notEmpty" => some ⟨.empty, true⟩
  | "regex" => some ⟨.pattern, false⟩
  | "notRegex" => some ⟨.pattern, true⟩
  | _ => none

/-- The part before the last slash and the part after it. -/
def splitLastSlash (cs : List Char) : Option (List Char × List Char) :=
  match cs.reverse.span (· != '/') with
  | (after, '/' :: before) => some (before.reverse, after.reverse)
  | _ => none

/-- The expression and the flag letters of a pattern operand. An operand that starts with a slash
and has another one is an expression between slashes with flags after it. -/
def patternParts (cs : List Char) : List Char × List Char :=
  match cs with
  | '/' :: rest => (splitLastSlash rest).getD (cs, [])
  | cs => (cs, [])

/-- The pattern of an operand; of its flags `i`, `m` and `s` have a meaning (`compile_regex`). -/
def patternOf? (operand : String) : Option Regex.Pattern :=
  let (body, flags) := patternParts operand.toList
  Regex.parse?
    { ignoreCase := flags.contains 'i', multiLine := flags.contains 'm',
      dotAll := flags.contains 's' }
    (String.ofList body)

/-- Letters folded when case does not count. -/
def folded (caseSensitive : Bool) (s : String) : String :=
  if caseSensitive then s else Text.lowerCase s

/-- Decides a test of texts. The text of a pattern is never folded. -/
def TextTest.holds (t : TextTest) (caseSensitive : Bool) (l r : String) :
    Except ConditionError Bool :=
  let l := folded caseSensitive l
  match t with
  | pattern =>
    match patternOf? r with
    | some p => .ok (p.isMatch l)
    | none => .error (.invalidPattern r Regex.refusal)
  | equals => .ok (l == folded caseSensitive r)
  | contains => .ok (Text.occursIn (folded caseSensitive r).toList l.toList)
  | startsWith => .ok ((folded caseSensitive r).toList.isPrefixOf l.toList)
  | endsWith => .ok ((folded caseSensitive r).toList.isSuffixOf l.toList)
  | empty => .ok l.isEmpty

/-- An operation on texts; `none` when the table does not have it (`string_operation`). -/
def textOperation (operation : String) (left right : Json) (caseSensitive : Bool) :
    Except ConditionError (Option Bool) := do
  let l ← toText left
  let r ← toText right
  match TextTest.ofName? operation with
  | none => .ok none
  | some s => return some (s.decide (← s.test.holds caseSensitive l r))

/-! ## Numbers -/

/-- Tests of numbers. -/
inductive NumberTest where
  | equals
  | greater
  | greaterOrEqual
  | less
  | lessOrEqual

/-- The operations on numbers. -/
def NumberTest.ofName? : String → Option (Signed NumberTest)
  | "equals" => some ⟨.equals, false⟩
  | "notEquals" => some ⟨.equals, true⟩
  | "gt" => some ⟨.greater, false⟩
  | "gte" => some ⟨.greaterOrEqual, false⟩
  | "lt" => some ⟨.less, false⟩
  | "lte" => some ⟨.lessOrEqual, false⟩
  | _ => none

/-- Decides a test of numbers. -/
def NumberTest.holds (t : NumberTest) (l r : Float) : Bool :=
  match t with
  | equals => l == r
  | greater => r < l
  | greaterOrEqual => r ≤ l
  | less => l < r
  | lessOrEqual => l ≤ r

/-- An operation on numbers; an operand that is null decides it to be false (`number_operation`). -/
def numberOperation (operation : String) (left right : Json) :
    Except ConditionError (Option Bool) :=
  match NumberTest.ofName? operation with
  | none => .ok none
  | some s =>
    if left.isNull || right.isNull then .ok (some false)
    else do
      let l ← toNumber left
      let r ← toNumber right
      return some (s.decide (s.test.holds l r))

/-! ## Dates and times -/

/-- Tests of moments. -/
inductive InstantTest where
  | equals
  | after
  | before
  | afterOrEqual
  | beforeOrEqual

/-- The operations on moments. -/
def InstantTest.ofName? : String → Option (Signed InstantTest)
  | "equals" => some ⟨.equals, false⟩
  | "notEquals" => some ⟨.equals, true⟩
  | "after" => some ⟨.after, false⟩
  | "before" => some ⟨.before, false⟩
  | "afterOrEquals" | "afterEquals" => some ⟨.afterOrEqual, false⟩
  | "beforeOrEquals" | "beforeEquals" => some ⟨.beforeOrEqual, false⟩
  | _ => none

/-- Decides a test of moments. -/
def InstantTest.holds (t : InstantTest) (l r : Time.Instant) : Bool :=
  match t with
  | equals => l == r
  | after => r.lt l
  | before => l.lt r
  | afterOrEqual => r.le l
  | beforeOrEqual => l.le r

/-- An operation on moments; an operand that is null decides it to be false
(`date_time_operation`). -/
def instantOperation (operation : String) (left right : Json) :
    Except ConditionError (Option Bool) :=
  match InstantTest.ofName? operation with
  | none => .ok none
  | some s =>
    if left.isNull || right.isNull then .ok (some false)
    else do
      let l ← toInstant left
      let r ← toInstant right
      return some (s.decide (s.test.holds l r))

/-! ## Booleans -/

/-- Tests of booleans. -/
inductive BoolTest where
  | isTrue
  | equals

/-- The operations on booleans. -/
def BoolTest.ofName? : String → Option (Signed BoolTest)
  | "true" => some ⟨.isTrue, false⟩
  | "false" => some ⟨.isTrue, true⟩
  | "equals" => some ⟨.equals, false⟩
  | "notEquals" => some ⟨.equals, true⟩
  | _ => none

/-- Decides a test of a boolean and, for equality, a value. -/
def BoolTest.holds (t : BoolTest) (l : Bool) (right : Json) : Except ConditionError Bool :=
  match t with
  | isTrue => .ok l
  | equals => (toBool right).map (l == ·)

/-- An operation on booleans; a null on the left decides it to be false (`boolean_operation`). -/
def boolOperation (operation : String) (left right : Json) :
    Except ConditionError (Option Bool) :=
  match BoolTest.ofName? operation with
  | none => .ok none
  | some s =>
    if left.isNull then .ok (some false)
    else do
      let l ← toBool left
      return some (s.decide (← s.test.holds l right))

/-! ## Arrays -/

/-- Tests of arrays. -/
inductive ArrayTest where
  | contains
  | empty
  | equals
  | length (t : NumberTest)

/-- The operations on arrays. -/
def ArrayTest.ofName? : String → Option (Signed ArrayTest)
  | "contains" => some ⟨.contains, false⟩
  | "notContains" => some ⟨.contains, true⟩
  | "empty" => some ⟨.empty, false⟩
  | "notEmpty" => some ⟨.empty, true⟩
  | "equals" => some ⟨.equals, false⟩
  | "notEquals" => some ⟨.equals, true⟩
  | "lengthEquals" => some ⟨.length .equals, false⟩
  | "lengthNotEquals" => some ⟨.length .equals, true⟩
  | "lengthGt" => some ⟨.length .greater, false⟩
  | "lengthGte" => some ⟨.length .greaterOrEqual, false⟩
  | "lengthLt" => some ⟨.length .less, false⟩
  | "lengthLte" => some ⟨.length .lessOrEqual, false⟩
  | _ => none

/-- Decides a test of an array. -/
def ArrayTest.holds (t : ArrayTest) (entries : List Json) (right : Json) :
    Except ConditionError Bool :=
  match t with
  | contains => .ok (entries.any (Json.equal · right))
  | empty => .ok entries.isEmpty
  | equals => .ok (Json.equal (.arr entries) right)
  | length t => (toNumber right).map (t.holds (Float.ofNat entries.length) ·)

/-- What an operation on arrays answers for null: it is empty, and every other test is false. -/
def ArrayTest.ofNull (s : Signed ArrayTest) : Bool :=
  match s.test with
  | empty => !s.negated
  | _ => false

/-- An operation on arrays (`array_operation`). -/
def arrayOperation (operation : String) (left right : Json) :
    Except ConditionError (Option Bool) :=
  match left with
  | .null => .ok ((ArrayTest.ofName? operation).map ArrayTest.ofNull)
  | .arr entries =>
    match ArrayTest.ofName? operation with
    | none => .ok none
    | some s => (s.test.holds entries right).map fun b => some (s.decide b)
  | v => .error (.wrongType v "array")

/-! ## Objects -/

/-- Tests of objects. -/
inductive ObjectTest where
  | empty
  | equals

/-- The operations on objects. -/
def ObjectTest.ofName? : String → Option (Signed ObjectTest)
  | "empty" => some ⟨.empty, false⟩
  | "notEmpty" => some ⟨.empty, true⟩
  | "equals" => some ⟨.equals, false⟩
  | "notEquals" => some ⟨.equals, true⟩
  | _ => none

/-- Decides a test of an object. -/
def ObjectTest.holds (t : ObjectTest) (o : Json.Object) (right : Json) : Bool :=
  match t with
  | empty => o.isEmpty
  | equals => Json.equal (.obj o) right

/-- What an operation on objects answers for null: it is empty, and can be compared with nothing. -/
def ObjectTest.ofNull (s : Signed ObjectTest) : Option Bool :=
  match s.test with
  | empty => some !s.negated
  | equals => none

/-- An operation on objects (`object_operation`). -/
def objectOperation (operation : String) (left right : Json) :
    Except ConditionError (Option Bool) :=
  match left with
  | .null => .ok ((ObjectTest.ofName? operation).bind ObjectTest.ofNull)
  | .obj o => .ok ((ObjectTest.ofName? operation).map fun s => s.decide (s.test.holds o right))
  | v => .error (.wrongType v "object")

/-! ## All kinds -/

/-- The tables of the kinds. -/
def tableOperation (kind operation : String) (left right : Json) (caseSensitive : Bool) :
    Except ConditionError (Option Bool) :=
  match kind with
  | "string" => textOperation operation left right caseSensitive
  | "number" => numberOperation operation left right
  | "dateTime" => instantOperation operation left right
  | "boolean" => boolOperation operation left right
  | "array" => arrayOperation operation left right
  | "object" => objectOperation operation left right
  | _ => .ok none

/-- What can be said before looking at the kind: whether there is a left value, and equality with
null. -/
def beforeTables (operation : String) (left right : Json) : Option Bool :=
  match operation with
  | "exists" => some !left.isNull
  | "notExists" => some left.isNull
  | "equals" => if left.isNull || right.isNull then some (left.isNull && right.isNull) else none
  | "notEquals" => if left.isNull || right.isNull then some !(left.isNull && right.isNull) else none
  | _ => none

/-- Decides an operation of a kind on two operands (`evaluate_operator`). -/
def evaluate (kind operation : String) (left right : Json) (caseSensitive : Bool) :
    Except ConditionError Bool :=
  match beforeTables operation left right with
  | some b => .ok b
  | none =>
    match tableOperation kind operation left right caseSensitive with
    | .error e => .error e
    | .ok (some b) => .ok b
    | .ok none => .error (.unknownOperation kind operation)

end Conveyor.Filter
