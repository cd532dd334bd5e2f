/-
Operations, jobs and stops that come in any order.

A service is used by many callers at once. Whatever they do is a list of moves, each of which is one
step of an operation or of a job, or a stop; what holds after every list of moves holds whatever
comes between the steps of an operation.
-/
import Conveyor.Service.Call
import Conveyor.Service.Job

set_option autoImplicit false

namespace Conveyor

/-- A service together with the operations under way. -/
structure Traffic where
  service : Service
  calls : List Call := []

/-- What happens next. -/
inductive Move where
  /-- An operation begins. -/
  | begin (c : Call)
  /-- The operation at a position takes a step. -/
  | call (k : Nat)
  /-- The job at a position takes a step. -/
  | job (k : Nat)
  /-- A run is stopped. -/
  | stop (id : String)

namespace Traffic

/-- One move. -/
def move (t : Traffic) : Move → Traffic
  | .begin c => { t with calls := t.calls ++ [c] }
  | .call k =>
    match t.calls[k]? with
    | some c =>
      let (c, service) := c.step t.service
      { service := service, calls := t.calls.set k c }
    | none => t
  | .job k => { t with service := t.service.stepJob k }
  | .stop id => { t with service := (t.service.stop id).2 }

/-- Many moves. -/
def moves (t : Traffic) (ms : List Move) : Traffic := ms.foldl move t

/-- Whether nothing is under way: every operation has its result, and every job has ended. -/
def isQuiet (t : Traffic) : Bool :=
  (t.calls.all fun c => c.bound == 0) &&
    t.service.jobs.all fun j =>
      match j.stage with
      | .ended _ | .collected => true
      | _ => false

end Traffic

end Conveyor
