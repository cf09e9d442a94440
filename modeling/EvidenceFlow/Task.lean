import EvidenceFlow.Fault
import EvidenceFlow.Table
import EvidenceFlow.Text.Quoted

/-!
# Tasks

A task stands for the work of one engine apart from the flow. It is settled once: by the result of the
work or by being cancelled, whichever comes first. Tasks are kept in a table and are known by their
places in it, since flows, result objects and executors refer to the same task.
-/

namespace EvidenceFlow

open Text

/-- How far a task has come. -/
inductive Task.State where
  /-- It is not settled. -/
  | pending
  /-- The work succeeded. -/
  | completed
  /-- The work failed. -/
  | failed (cause : Fault)
  /-- It was cancelled before the work ended. -/
  | cancelled

/-- The work of one engine apart from the flow. -/
structure Task where
  /-- The name of the engine. -/
  engine : String
  /-- How far it has come. -/
  state : Task.State := .pending

namespace Task

/-- Whether the task is not settled. -/
def isPending (task : Task) : Bool :=
  match task.state with
  | .pending => true
  | _ => false

/-- Whether the task is settled. -/
def isDone (task : Task) : Bool := !task.isPending

/-- Whether the task was cancelled. -/
def isCancelled (task : Task) : Bool :=
  match task.state with
  | .cancelled => true
  | _ => false

/-- The state that a result leads to. -/
def State.ofResult : Except Fault Unit → State
  | .ok () => .completed
  | .error cause => .failed cause

/-- Settles a pending task. -/
def settle (task : Task) (state : State) : Task :=
  if task.isPending then { task with state } else task

/-- Settles a pending task by the result of the work. -/
def complete (task : Task) (result : Except Fault Unit) : Task :=
  task.settle (.ofResult result)

/-- Cancels a pending task. -/
def cancel (task : Task) : Task := task.settle .cancelled

/-- A task that does not wait stays as it is. -/
theorem settle_of_isDone {task : Task} (h : task.isDone) (state : State) : task.settle state = task := by
  rw [isDone, Bool.not_eq_true'] at h
  rw [settle, if_neg (by simp [h])]

/-- A task that waits is settled. -/
theorem settle_of_isPending {task : Task} (h : task.isPending) (state : State) :
    task.settle state = { task with state } := by
  rw [settle, if_pos h]

/-- A task is settled once its work has ended. -/
theorem isDone_complete (task : Task) (result : Except Fault Unit) : (task.complete result).isDone := by
  rw [complete]
  cases h : task.isPending with
  | true => rw [settle_of_isPending h]; cases result <;> rfl
  | false =>
    have done : task.isDone := by simp [isDone, h]
    rwa [settle_of_isDone done]

/-- A task is settled once it has been cancelled. -/
theorem isDone_cancel (task : Task) : task.cancel.isDone := by
  rw [cancel]
  cases h : task.isPending with
  | true => rw [settle_of_isPending h]; rfl
  | false =>
    have done : task.isDone := by simp [isDone, h]
    rwa [settle_of_isDone done]

/-- The state in a word. -/
def State.word : State → String
  | pending => "pending"
  | completed => "completed"
  | failed _ => "failed"
  | cancelled => "cancelled"

/-- How the task is shown. -/
def shown (task : Task) : String :=
  shownRecord "LazyTask" [("engine", quoted task.engine), ("state", quoted task.state.word)]

end Task

/-- The place of a task in the table. -/
abbrev TaskId := Nat

/-- The table of tasks. -/
structure Tasks where
  /-- The tasks in the order in which they were made. -/
  table : List Task := []
deriving Inhabited

namespace Tasks

/-- Makes a task for an engine. -/
def add (tasks : Tasks) (engine : String) : TaskId × Tasks :=
  (tasks.table.length, ⟨tasks.table ++ [{ engine := engine }]⟩)

/-- The task at a place. -/
def get? (tasks : Tasks) (id : TaskId) : Option Task := tasks.table[id]?

/-- The table with the task at a place changed. -/
def modify (tasks : Tasks) (id : TaskId) (f : Task → Task) : Tasks :=
  ⟨tasks.table.modify id f⟩

/-- Changing one task changes no other. -/
theorem get?_modify (tasks : Tasks) (id other : TaskId) (f : Task → Task) :
    (tasks.modify id f).get? other = if other = id then (tasks.get? other).map f else tasks.get? other := by
  rw [get?, modify, List.getElem?_modify, get?]
  by_cases h : other = id
  · simp [h]
  · simp [h, Ne.symm h]

/-- Whether the task is settled. -/
def isDone (tasks : Tasks) (id : TaskId) : Bool :=
  (tasks.get? id).all Task.isDone

/-- Whether the task was cancelled. -/
def isCancelled (tasks : Tasks) (id : TaskId) : Bool :=
  (tasks.get? id).any Task.isCancelled

/-- Settles a task by a result and says whether it was pending. -/
def complete (tasks : Tasks) (id : TaskId) (result : Except Fault Unit) : Bool × Tasks :=
  (!tasks.isDone id, tasks.modify id (·.complete result))

/-- Cancels a task unless it is settled. -/
def cancel (tasks : Tasks) (id : TaskId) : Tasks :=
  tasks.modify id Task.cancel

/-- Cancels tasks one after the other. -/
def cancelAll (tasks : Tasks) (ids : List TaskId) : Tasks :=
  ids.foldl cancel tasks

/-- Whether all the tasks are settled. -/
def allDone (tasks : Tasks) (ids : List TaskId) : Bool :=
  ids.all tasks.isDone

end Tasks

/-- Tasks by the names given to them. -/
structure NamedTasks where
  /-- The names, each once. -/
  names : Table String TaskId := []
  /-- The tasks. -/
  tasks : Tasks := {}
deriving Inhabited

namespace NamedTasks

/-- The task of a name, which is made for an engine if the name is new. -/
def find (named : NamedTasks) (name engine : String) : TaskId × NamedTasks :=
  match named.names.lookup name with
  | some id => (id, named)
  | none =>
    let (id, tasks) := named.tasks.add engine
    (id, { names := named.names.put name id, tasks })

end NamedTasks

end EvidenceFlow
