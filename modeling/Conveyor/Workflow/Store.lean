/-
A store of workflows by id.
-/
import Conveyor.Workflow.Basic

set_option autoImplicit false

namespace Conveyor

/-- Workflows by id (`InMemoryWorkflowStore`). -/
abbrev WorkflowStore := Named Workflow

namespace WorkflowStore

/-- Saves a workflow under its id (`save_workflow`). -/
def save (s : WorkflowStore) (w : Workflow) : WorkflowStore := s.insert w.id w

/-- Removes a workflow; tells whether it was there (`delete_workflow`). -/
def delete (s : WorkflowStore) (id : String) : Bool × WorkflowStore := (s.contains id, s.erase id)

/-- The workflows in the order of their ids (`list_workflows`). -/
def list (s : WorkflowStore) : List Workflow := s.sorted.map Prod.snd

end WorkflowStore

end Conveyor
