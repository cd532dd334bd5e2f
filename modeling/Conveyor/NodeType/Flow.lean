/-
Node types that steer a run: starting it, passing items on, pausing it, and stopping it.
-/
import Conveyor.NodeType.Basic

set_option autoImplicit false

namespace Conveyor.NodeType

/-- Choices that are called by their values. -/
def choicesOf (names : List String) : List Parameter.Choice :=
  names.map fun name => ⟨name, .str name⟩

/-- Display rules that show a parameter for one value of another one. -/
def shownFor (name value : String) : Option Parameter.DisplayRules :=
  some { showFor := [(name, [.str value])] }

/-! ## Starting and passing on -/

/-- Starts a run with its items, or with one empty item (`ManualTriggerNode`). -/
def manualTrigger : NodeType where
  spec := { name := "manualTrigger", displayName := "Manual Trigger" }
  category := .trigger
  execute i := .returns (.triggered [if i.mainItems.isEmpty then [{}] else i.mainItems])

/-- Passes its items on (`NoOpNode`). -/
def noOp : NodeType where
  spec := { name := "noOp", displayName := "No Operation" }
  execute i := .returns (.output [i.mainItems])

/-! ## Pausing -/

/-- What the pause declares. -/
def waitSpec : Parameter.Spec :=
  { name := "wait", displayName := "Wait"
    properties :=
      [{ name := "resume", kind := .options, default := .str "timeInterval",
         choices := choicesOf ["timeInterval", "specificTime"] },
       { name := "amount", kind := .number, default := Json.ofInt 1,
         display := shownFor "resume" "timeInterval" },
       { name := "unit", kind := .options, default := .str "hours",
         choices := choicesOf ["seconds", "minutes", "hours", "days"],
         display := shownFor "resume" "timeInterval" },
       { name := "dateTime", kind := .dateTime, default := .str "",
         display := shownFor "resume" "specificTime" }] }

/-- The seconds in a unit of time. -/
def unitSeconds : Named Float :=
  [("seconds", 1.0), ("minutes", 60.0), ("hours", 3600.0), ("days", 86400.0)]

/-- The end of an interval that starts now, if the calendar covers it. -/
def intervalEnd? (now : Time.Instant) (amount seconds : Float) : Option Time.Instant :=
  let millis := (amount * seconds * 1000.0).round
  if millis < 9223372036854775808.0 then
    (Decimal.wholeOfFloat? millis).bind now.addMillis?
  else none

/-- The moment at which an interval ends. -/
def waitInterval (i : NodeInput) : Except NodeError Time.Instant := do
  let amount ← Parameter.Error.lift (i.getNumber "amount" 0)
  if amount.isNaN || amount.isInf || amount < 0.0 then .error (.negativeAmount amount)
  else
    let unit ← Parameter.Error.lift (i.getString "unit" 0)
    match unitSeconds.get? unit with
    | none => .error (.unknownUnit unit)
    | some seconds =>
      match intervalEnd? i.now amount seconds with
      | some t => .ok t
      | none => .error (.intervalOutOfRange amount unit)

/-- The moment until which a node waits (`WaitNode::wait_till`). -/
def waitTill (i : NodeInput) : Except NodeError Time.Instant := do
  let resume ← Parameter.Error.lift (i.getString "resume" 0)
  match resume with
  | "specificTime" =>
    let text ← Parameter.Error.lift (i.getString "dateTime" 0)
    match Time.Instant.read? text with
    | some t => .ok t
    | none => .error (.invalidMoment text)
  | "timeInterval" => waitInterval i
  | other => .error (.unknownResumeMode other)

/-- Passes its items on and pauses the run; a moment that has passed makes no pause (`WaitNode`). -/
def wait : NodeType where
  spec := waitSpec
  execute i := .ofExcept ((waitTill i).map fun till =>
    if till.le i.now then .output [i.mainItems] else .paused [i.mainItems] till)

/-! ## Stopping -/

/-- What the stop declares. -/
def stopSpec : Parameter.Spec :=
  { name := "stopAndError", displayName := "Stop and Error"
    properties :=
      [{ name := "errorMessage", kind := .string, default := .str "Workflow stopped" }] }

/-- Fails with a message (`StopAndErrorNode`). -/
def stopAndError : NodeType where
  spec := stopSpec
  execute i := .ofExcept (do
    let message ← Parameter.Error.lift (i.getString "errorMessage" 0)
    .error (.stopped message))

end Conveyor.NodeType
