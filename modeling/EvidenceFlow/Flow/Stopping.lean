import EvidenceFlow.Flow

/-!
# Stopping a flow from several sides

Several holders of one flow stop it, offer it tasks to cancel and settle tasks at the same time, step by
step. Who stops the flow first raises its flag, then takes the tasks that wait for the stop, and then
cancels them one by one. Who offers a task finds out in one step whether the flow has been stopped: if
not the task is left with the flow, and otherwise it is cancelled in a step of its own.
-/

namespace EvidenceFlow

/-- What a holder of the flow has yet to do. -/
inductive StopStage where
  /-- To take the tasks that wait for the stop. -/
  | take
  /-- To cancel these tasks. -/
  | cancel (left : List TaskId)
deriving DecidableEq, Repr

/-- A flow in the hands of several holders. -/
structure Stopping where
  /-- The flow. -/
  flow : Flow := {}
  /-- The tasks. -/
  tasks : Tasks := {}
  /-- The tasks offered so far. -/
  offered : List TaskId := []
  /-- What holders of the flow have yet to do. -/
  pending : List StopStage := []

/-- What happens next. -/
inductive StopEvent where
  /-- A task is made. -/
  | make (engine : String)
  /-- A task is settled by the result of its work. -/
  | complete (task : TaskId) (result : Except Fault Unit)
  /-- A task is offered, to be cancelled when the flow is stopped. -/
  | offer (task : TaskId)
  /-- A stop begins: the flag is raised. -/
  | raise
  /-- A stop goes on: the tasks that wait for it are taken. -/
  | take (holder : Nat)
  /-- One task is cancelled. -/
  | cancel (holder : Nat)

namespace Stopping

/-- Notes what a holder has yet to do. -/
def leaveTo (s : Stopping) (stage : StopStage) : Stopping :=
  { s with pending := s.pending ++ [stage] }

/-- Offers a task, in one step. -/
def offer (s : Stopping) (task : TaskId) : Stopping :=
  let s := { s with offered := s.offered ++ [task] }
  if s.flow.stopped then s.leaveTo (.cancel [task])
  else { s with flow := (s.flow.onStop s.tasks task).1 }

/-- What an event leads to, if it can happen. -/
def step? (s : Stopping) : StopEvent → Option Stopping
  | .make engine => some { s with tasks := (s.tasks.add engine).2 }
  | .complete task result => some { s with tasks := (s.tasks.complete task result).2 }
  | .offer task => if (s.tasks.get? task).isSome then some (s.offer task) else none
  | .raise => some ({ s with flow := s.flow.raiseStop }.leaveTo .take)
  | .take holder =>
    match s.pending[holder]? with
    | some .take =>
      let (hooks, flow) := s.flow.takeHooks
      some { s with flow, pending := s.pending.set holder (.cancel hooks) }
    | _ => none
  | .cancel holder =>
    match s.pending[holder]? with
    | some (.cancel (task :: left)) =>
      some { s with tasks := s.tasks.cancel task, pending := s.pending.set holder (.cancel left) }
    | _ => none

/-- What events lead to, one after the other, if they can happen. -/
def run? (s : Stopping) : List StopEvent → Option Stopping
  | [] => some s
  | event :: rest => (s.step? event).bind (run? · rest)

/-- Whether nobody has anything left to do. -/
def isQuiet (s : Stopping) : Bool :=
  s.pending.all fun stage => stage == .cancel []

end Stopping

end EvidenceFlow
