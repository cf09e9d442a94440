import EvidenceFlow.Executor
import EvidenceFlow.Flow
import EvidenceFlow.Tracker

/-!
# Scenes

A scene is all that an element can read and change while it deals with a flow: the flow itself, and
what the elements of a pipeline keep between flows. An act is a step on a scene, which may end early:
with a fault, or broken off. What was changed before stays changed.

Elements are known by numbers. A job is work for one flow that an executor has taken over; it names
what it works on, so that queues of jobs are plain data.
-/

namespace EvidenceFlow

/-- Work of an engine for one flow, to be done apart from it. -/
structure Job where
  /-- The task that the job settles. -/
  task : TaskId
  /-- The flow. -/
  flow : Nat
  /-- The result object of the flow that the engine writes. -/
  object : ObjectId
  /-- The fingerprint under which the result is kept. -/
  key : Option Fingerprint
  /-- The number of the element whose engine works. -/
  element : Nat
deriving Repr, DecidableEq

/-- What the elements of a pipeline keep between flows; `user` is for what elements bring along. -/
structure Shared (υ : Type) where
  /-- The tasks of all flows. -/
  tasks : Tasks := {}
  /-- The stores of results, by element. -/
  results : Table Nat (KeyedStore Aspect) := []
  /-- The trackers, by element. -/
  trackers : Table Nat IntervalTracker := []
  /-- The jobs that wait for being run. -/
  queue : List Job := []
  /-- The threads that are started one for each job. -/
  threads : Threads := {}
  /-- The pools of single engines, by element. -/
  pools : Table Nat Pool := []
  /-- The clock, in milliseconds. -/
  now : Int := 0
  /-- What elements bring along. -/
  user : υ

/-- All that an element can read and change while it deals with a flow. -/
structure Scene (υ : Type) where
  /-- The flow. -/
  flow : Flow
  /-- What is kept between flows. -/
  shared : Shared υ

/-- Why an act ended early. -/
inductive Halt where
  /-- With a fault. -/
  | fault (fault : Fault)
  /-- Broken off, with a message. -/
  | panic (message : String)

/-- A step on a scene. -/
abbrev Act (υ α : Type) := ExceptT Halt (StateM (Scene υ)) α

namespace Act

variable {υ α : Type}

/-- Ends with a fault. -/
def fail (fault : Fault) : Act υ α := throw (.fault fault)

/-- Takes a result as it is, or ends with its fault. -/
def ofExcept : Except Fault α → Act υ α
  | .ok value => pure value
  | .error fault => fail fault

/-- Does something with the flow. -/
def onFlow (f : Flow → α × Flow) : Act υ α :=
  modifyGet fun scene => let (value, flow) := f scene.flow; (value, { scene with flow })

/-- Does something with the flow that may fail and then changes nothing. -/
def tryFlow (f : Flow → Except Fault Flow) : Act υ Unit := do
  let scene ← get
  set { scene with flow := ← ofExcept (f scene.flow) }

/-- Changes what is kept between flows. -/
def onShared (f : Shared υ → α × Shared υ) : Act υ α :=
  modifyGet fun scene => let (value, shared) := f scene.shared; (value, { scene with shared })

/-- Does something with the flow and the tasks. -/
def onTasks (f : Flow → Tasks → Flow × Tasks) : Act υ Unit :=
  modify fun scene =>
    let (flow, tasks) := f scene.flow scene.shared.tasks
    { flow, shared := { scene.shared with tasks } }

/-- Stops the flow and cancels the tasks that wait for that. -/
def stop : Act υ Unit := onTasks Flow.stop

/-- Lets a task be cancelled when the flow is stopped. -/
def onStop (task : TaskId) : Act υ Unit := onTasks fun flow tasks => flow.onStop tasks task

/-- Cancels a task. -/
def cancel (task : TaskId) : Act υ Unit :=
  onShared fun shared => ((), { shared with tasks := shared.tasks.cancel task })

/-- Settles a task by a result and says whether it was pending. -/
def complete (task : TaskId) (result : Except Fault Unit) : Act υ Bool :=
  onShared fun shared =>
    let (settled, tasks) := shared.tasks.complete task result
    (settled, { shared with tasks })

/-- Makes a task for an engine. -/
def newTask (engine : String) : Act υ TaskId :=
  onShared fun shared =>
    let (task, tasks) := shared.tasks.add engine
    (task, { shared with tasks })

/-- The result object under a key, made if nothing is there. -/
def objectAt (key : String) : Act υ ObjectId := do
  ofExcept (← onFlow fun flow => flow.objectAt key)

/-- Changes a result object. -/
def modifyObject (id : ObjectId) (f : Aspect → Aspect) : Act υ Unit :=
  onFlow fun flow => ((), flow.modifyObject id f)

/-- How an act ends on a scene, and what it leaves. -/
def runOn (act : Act υ α) (scene : Scene υ) : Except Halt α × Scene υ :=
  StateT.run (ExceptT.run act) scene

/-! ## How acts end -/

variable {β : Type}

/-- To end with a result changes nothing. -/
@[simp] theorem runOn_pure (x : α) (scene : Scene υ) :
    (pure x : Act υ α).runOn scene = (.ok x, scene) := rfl

/-- What follows an act sees what the act left, and does not take place after an early end. -/
theorem runOn_bind (act : Act υ α) (next : α → Act υ β) (scene : Scene υ) :
    (act >>= next).runOn scene =
      match act.runOn scene with
      | (.ok x, scene) => (next x).runOn scene
      | (.error halt, scene) => (.error halt, scene) := by
  change (ExceptT.bindCont next (act.runOn scene).1) (act.runOn scene).2 = _
  rcases act.runOn scene with ⟨ended, after⟩
  cases ended <;> rfl

/-- To break off changes nothing. -/
@[simp] theorem runOn_throw (halt : Halt) (scene : Scene υ) :
    (throw halt : Act υ α).runOn scene = (.error halt, scene) := rfl

/-- To end with a fault changes nothing. -/
@[simp] theorem runOn_fail (fault : Fault) (scene : Scene υ) :
    (fail fault : Act υ α).runOn scene = (.error (.fault fault), scene) := rfl

/-- To look at the scene changes nothing. -/
@[simp] theorem runOn_get (scene : Scene υ) :
    (get : Act υ (Scene υ)).runOn scene = (.ok scene, scene) := rfl

/-- A change of the scene ends with nothing. -/
@[simp] theorem runOn_modify (f : Scene υ → Scene υ) (scene : Scene υ) :
    (modify f : Act υ PUnit).runOn scene = (.ok ⟨⟩, f scene) := rfl

/-- A change of the scene ends with what it finds out. -/
@[simp] theorem runOn_modifyGet (f : Scene υ → α × Scene υ) (scene : Scene υ) :
    (modifyGet f : Act υ α).runOn scene = (.ok (f scene).1, (f scene).2) := rfl

/-- A change of the flow leaves alone what is kept between flows. -/
@[simp] theorem runOn_onFlow (f : Flow → α × Flow) (scene : Scene υ) :
    (onFlow f : Act υ α).runOn scene =
      (.ok (f scene.flow).1, { scene with flow := (f scene.flow).2 }) := rfl

/-- A change of what is kept between flows leaves the flow alone. -/
@[simp] theorem runOn_onShared (f : Shared υ → α × Shared υ) (scene : Scene υ) :
    (onShared f).runOn scene =
      (.ok (f scene.shared).1, { scene with shared := (f scene.shared).2 }) := rfl

/-- A failed change of the flow leaves the scene as it was. -/
theorem runOn_tryFlow (f : Flow → Except Fault Flow) (scene : Scene υ) :
    (tryFlow f).runOn scene =
      match f scene.flow with
      | .ok flow => (.ok (), { scene with flow })
      | .error fault => (.error (.fault fault), scene) := by
  rw [tryFlow, runOn_bind, runOn_get]
  dsimp only
  rw [runOn_bind]
  cases f scene.flow <;> rfl

/-- A change of the flow and the tasks leaves alone what else is kept between flows. -/
theorem runOn_onTasks (f : Flow → Tasks → Flow × Tasks) (scene : Scene υ) :
    (onTasks f).runOn scene =
      (.ok (), { scene with
        flow := (f scene.flow scene.shared.tasks).1
        shared := { scene.shared with tasks := (f scene.flow scene.shared.tasks).2 } }) := rfl

/-- A discarded value leaves what the act left. -/
theorem runOn_discard (act : Act υ α) (scene : Scene υ) :
    (discard act).runOn scene = ((act.runOn scene).1.map fun _ => ⟨⟩, (act.runOn scene).2) := by
  change (((fun _ => PUnit.unit) <$> act : Act υ PUnit)).runOn scene = _
  rw [← bind_pure_comp, runOn_bind]
  rcases act.runOn scene with ⟨ended, after⟩
  cases ended <;> rfl

end Act

/-- A step on what is kept between flows, which may fail. -/
abbrev Chore (υ α : Type) := ExceptT Fault (StateM (Shared υ)) α

end EvidenceFlow
