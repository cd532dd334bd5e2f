/-
Why a service did not start a run, and why a run that it started gave no result.
-/
import Conveyor.Run.Record

set_option autoImplicit false

namespace Conveyor

/-- Why a run that was started gave no result (`ExecutionFailure`). -/
inductive Failure where
  | error (message : String)
  /-- The work broke down. -/
  | crash (message : String)
  deriving DecidableEq

namespace Failure

/-- The text of a failure. -/
def message : Failure → String
  | error message => message
  | crash message => "execution panicked: " ++ message

/-- The status of a record whose run failed so. -/
def status : Failure → RunStatus
  | error _ => .failed
  | crash _ => .crashed

end Failure

/-- Why a service did not start a run. -/
inductive ServiceError where
  | store (cause : StoreError)
  | register (cause : StoreError)
  | reopen (cause : StoreError)
  | workflowNotFound (id : String)
  | recordNotFound (id : String)
  | notWaiting (id : String) (status : RunStatus)
  | notRegistered (id : String)
  deriving DecidableEq

/-- The text of a service error. -/
def ServiceError.message : ServiceError → String
  | store cause => cause.message
  | register cause => "Failed to register execution: " ++ cause.message
  | reopen cause => "Failed to reopen execution: " ++ cause.message
  | workflowNotFound id => "Workflow not found: " ++ id
  | recordNotFound id => "Execution not found: " ++ id
  | notWaiting id status =>
    "Execution " ++ id ++ " is not waiting (status " ++ status.capitalized ++ ")"
  | notRegistered id => "Execution " ++ id ++ " is not registered"

end Conveyor
