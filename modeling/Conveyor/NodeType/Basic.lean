/-
Types of nodes: what a node declares and what it does.

A node type turns the items on a node's input ports into items on its output ports, or fails. While
it is executed, a node may also cancel its run, or wait until the run is canceled; and it may break
down, which is no failure of the node but of the run as a whole.
-/
import Conveyor.Parameter.Resolver

set_option autoImplicit false

namespace Conveyor

/-- Whether a node type starts runs (`NodeCategory`). -/
inductive Category where
  | trigger
  | executor
  deriving DecidableEq

/-- The name of a category. -/
def Category.name : Category → String
  | trigger => "trigger"
  | executor => "executor"

/-- What a node is executed with. -/
structure NodeInput where
  view : View
  inputs : List Items
  sources : List Source
  resolver : Parameter.Resolver
  now : Time.Instant

/-- What an execution of a node comes to (`NodeExecutionResult`). -/
inductive NodeResult where
  | output (ports : List Items)
  /-- Items that a trigger brought up. -/
  | triggered (ports : List Items)
  /-- Items, and a moment until which the run is to be paused. -/
  | paused (ports : List Items) (till : Time.Instant)
  | failed (errors : List String)

/-- How an execution of a node goes on. -/
inductive Attempt where
  | returns (r : NodeResult)
  /-- The run is canceled during the execution. -/
  | cancelsRun (r : NodeResult)
  /-- The execution does not end before the run is canceled. -/
  | lingers (r : NodeResult)
  /-- The node breaks down. -/
  | breaks (message : String)

/-- A node type (`ExecutableNode`). -/
structure NodeType where
  spec : Parameter.Spec
  category : Category := .executor
  /-- How many output ports there are. -/
  outputs : Nat := 1
  execute : NodeInput → Attempt

namespace NodeResult

/-- The message of a failure without errors. -/
def failureMessage : String := "Node execution failed"

/-- The message of errors (`NodeExecutionResult::error_message`). -/
def messageOf (errors : List String) : String :=
  if errors.isEmpty then failureMessage else "; ".intercalate errors

/-- The items on the output ports (`NodeExecutionResult::into_output`). -/
def ports : NodeResult → List Items
  | output ports | triggered ports | paused ports _ => ports
  | failed _ => []

/-- The moment until which the run is to be paused. -/
def till? : NodeResult → Option Time.Instant
  | paused _ till => some till
  | output _ | triggered _ | failed _ => none

end NodeResult

namespace NodeInput

/-- The items on an input port (`NodeInput::items`). -/
def items (i : NodeInput) (port : Nat) : Items := i.inputs.getD port []

/-- The items on the first input port (`NodeInput::main_items`). -/
def mainItems (i : NodeInput) : Items := i.items 0

/-- A parameter (`NodeInput::get_parameter`). -/
def get (i : NodeInput) (path : String) (itemIndex : Nat) (access : Parameter.Access) :
    Except Parameter.Error Json :=
  i.resolver.get i.view path none itemIndex access

/-- A string parameter (`NodeInput::get_string`). -/
def getString (i : NodeInput) (path : String) (itemIndex : Nat) : Except Parameter.Error String :=
  i.resolver.getString i.view path none itemIndex

/-- A boolean parameter (`NodeInput::get_bool`). -/
def getBool (i : NodeInput) (path : String) (itemIndex : Nat) : Except Parameter.Error Bool :=
  i.resolver.getBool i.view path none itemIndex

/-- A number parameter (`NodeInput::get_number`). -/
def getNumber (i : NodeInput) (path : String) (itemIndex : Nat) : Except Parameter.Error Float :=
  i.resolver.getNumber i.view path none itemIndex

end NodeInput

/-! ## Failures of the built-in node types -/

/-- Why a built-in node fails. -/
inductive NodeError where
  | parameter (cause : Parameter.Error)
  | script (cause : Script.Error)
  | codeNotText
  | unknownMode (name : String)
  | unknownBranch (name : String)
  | outputNotJson
  | outputNotObject (actual : String)
  | invalidMoment (text : String)
  | negativeAmount (amount : Float)
  | unknownUnit (name : String)
  | intervalOutOfRange (amount : Float) (unit : String)
  | unknownResumeMode (name : String)
  /-- A node that fails on purpose. -/
  | stopped (message : String)

/-- The text of a node error. -/
def NodeError.message : NodeError → String
  | parameter cause => cause.message
  | script cause => cause.message
  | codeNotText => "Parameter 'code' must be a string"
  | unknownMode name => "Unknown mode '" ++ name ++ "'"
  | unknownBranch name => "Unknown branch '" ++ name ++ "'"
  | outputNotJson => "'JSON Output' is not valid JSON"
  | outputNotObject actual => "'JSON Output' must be an object, got " ++ actual
  | invalidMoment text => "Invalid date and time '" ++ text ++ "'"
  | negativeAmount amount =>
    "Wait amount must be a non-negative number, got " ++ Decimal.positionalText amount
  | unknownUnit name => "Unknown wait unit '" ++ name ++ "'"
  | intervalOutOfRange amount unit =>
    "Wait interval of " ++ Decimal.positionalText amount ++ " " ++ unit ++ " is out of range"
  | unknownResumeMode name => "Unknown resume mode '" ++ name ++ "'"
  | stopped message => message

/-- The execution that a result or an error makes. -/
def Attempt.ofExcept : Except NodeError NodeResult → Attempt
  | .ok r => .returns r
  | .error e => .returns (.failed [e.message])

/-- An error of a parameter as one of the node. -/
def Parameter.Error.lift {α : Type} : Except Parameter.Error α → Except NodeError α
  | .ok a => .ok a
  | .error e => .error (.parameter e)

/-- An error of a script as one of the node. -/
def Script.Error.lift {α : Type} : Except Script.Error α → Except NodeError α
  | .ok a => .ok a
  | .error e => .error (.script e)

end Conveyor
