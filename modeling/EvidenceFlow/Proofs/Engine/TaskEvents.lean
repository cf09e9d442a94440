import EvidenceFlow.Proofs.Pipeline.Acts
import EvidenceFlow.Engine.Course

/-!
# What happens to tasks

While a task waits for its work, its flow may be stopped, it may be cancelled by who waits for it, and
other tasks come and go. Here each of these is a call that nobody interrupts. A task that was offered to
its flow is guarded between such calls: until it is settled the flow has not been stopped, and knows the
task.
-/

namespace EvidenceFlow

/-! ## States -/

namespace Task.State

/-- What settles a task first has the last word. -/
def orElse (state next : State) : State :=
  match state with
  | pending => next
  | settled => settled

/-- The state of a task that was cancelled or is not settled. -/
def struck (cancelled : Bool) : State := if cancelled then .cancelled else pending

/-- To be given no other state changes nothing. -/
@[simp] theorem orElse_pending (state : State) : state.orElse pending = state := by
  cases state <;> rfl

/-- No result leaves a task waiting. -/
theorem ofResult_ne_pending (result : Except Fault Unit) : ofResult result ≠ pending := by
  cases result <;> nofun

/-- A task waits if nothing has settled it. -/
theorem orElse_eq_pending {state next : State} :
    state.orElse next = pending ↔ state = pending ∧ next = pending := by
  cases state <;> simp [orElse]

/-- Nothing comes after what has settled a task. -/
theorem orElse_of_ne_pending {state : State} (h : state ≠ pending) (next : State) :
    state.orElse next = state := by
  cases state
  · exact absurd rfl h
  all_goals rfl

/-- No result cancels a task. -/
theorem eq_cancelled_of_orElse_ofResult {state : State} {result : Except Fault Unit}
    (h : state.orElse (ofResult result) = cancelled) : state = cancelled := by
  cases state with
  | pending => cases result <;> cases h
  | completed => cases h
  | failed cause => cases h
  | cancelled => rfl

end Task.State

/-- A task is settled if it was waiting. -/
theorem Task.state_settle (task : Task) (next : State) :
    (task.settle next).state = task.state.orElse next := by
  rw [settle, isPending]
  cases hstate : task.state <;> simp [State.orElse, hstate]

namespace Tasks

/-- The state of the task at a place. -/
def stateOf (tasks : Tasks) (id : TaskId) : Option Task.State := (tasks.get? id).map Task.state

/-- A task that is in a state has been made. -/
theorem lt_length_of_stateOf {tasks : Tasks} {id : TaskId} {state : Task.State}
    (h : tasks.stateOf id = some state) : id < tasks.table.length := by
  obtain ⟨task, htask, -⟩ := Option.map_eq_some_iff.mp h
  exact (List.getElem?_eq_some_iff.mp htask).1

/-- Settling a task changes its own state only, and only if it waits. -/
theorem stateOf_modify_settle (tasks : Tasks) (id other : TaskId) (next : Task.State) :
    (tasks.modify id (·.settle next)).stateOf other =
      if other = id then (tasks.stateOf other).map (·.orElse next) else tasks.stateOf other := by
  rw [stateOf, get?_modify]
  split
  · simp only [stateOf, Option.map_map, Function.comp_def, Task.state_settle]
  · rfl

/-- A task that is made leaves the others as they are. -/
theorem stateOf_add {tasks : Tasks} (engine : String) {id : TaskId} {state : Task.State}
    (h : tasks.stateOf id = some state) : (tasks.add engine).2.stateOf id = some state := by
  have hsame : (tasks.add engine).2.get? id = tasks.get? id :=
    List.getElem?_append_left (lt_length_of_stateOf h)
  rw [stateOf, hsame]
  exact h

/-- A task that is made waits. -/
theorem stateOf_add_self (tasks : Tasks) (engine : String) :
    (tasks.add engine).2.stateOf tasks.table.length = some .pending := by
  simp [stateOf, get?, add]

/-- A settled task was there before another one was made. -/
theorem stateOf_of_add {tasks : Tasks} {engine : String} {id : TaskId} {state : Task.State}
    (h : (tasks.add engine).2.stateOf id = some state) (hdone : state ≠ .pending) :
    tasks.stateOf id = some state := by
  obtain ⟨task, htask, rfl⟩ := Option.map_eq_some_iff.mp h
  rw [get?, add, List.getElem?_append] at htask
  split at htask
  · rw [stateOf, get?, htask, Option.map_some]
  · obtain rfl := List.mem_singleton.mp (List.mem_of_getElem? htask)
    exact absurd rfl hdone

/-- A task is done if it does not wait. -/
theorem isDone_iff {tasks : Tasks} {id : TaskId} {state : Task.State}
    (h : tasks.stateOf id = some state) : tasks.isDone id = true ↔ state ≠ .pending := by
  obtain ⟨task, htask, rfl⟩ := Option.map_eq_some_iff.mp h
  rw [isDone, htask, Option.all_some, Task.isDone, Task.isPending]
  cases task.state <;> simp

/-- A task is cancelled if that is its state. -/
theorem isCancelled_iff {tasks : Tasks} {id : TaskId} {state : Task.State}
    (h : tasks.stateOf id = some state) : tasks.isCancelled id = true ↔ state = .cancelled := by
  obtain ⟨task, htask, rfl⟩ := Option.map_eq_some_iff.mp h
  rw [isCancelled, htask, Option.any_some, Task.isCancelled]
  cases task.state <;> simp

/-- Nothing changes a task that is settled. -/
theorem modify_settle_of_ne_pending {tasks : Tasks} {id : TaskId} {state : Task.State}
    (h : tasks.stateOf id = some state) (hdone : state ≠ .pending) (next : Task.State) :
    tasks.modify id (·.settle next) = tasks := by
  obtain ⟨task, htask, rfl⟩ := Option.map_eq_some_iff.mp h
  have hsettle : task.settle next = task := by
    refine Task.settle_of_isDone ?_ next
    rw [Task.isDone, Task.isPending]
    cases hstate : task.state <;> simp_all
  have htable : tasks.table.modify id (·.settle next) = tasks.table := by
    refine List.ext_getElem? fun other => ?_
    rw [List.getElem?_modify, Option.map_eq_map]
    split
    · next heq =>
      subst heq
      rw [get?] at htask
      rw [htask, Option.map_some, hsettle]
    · exact Option.map_id'
  rw [modify, htable]

end Tasks

/-! ## Events -/

variable {υ : Type}

/-- Nothing is amended in a scene with the same tasks. -/
theorem Scene.amend_eq {scene next : Scene υ} (hstopped : next.flow.stopped = scene.flow.stopped)
    (hhooks : next.flow.hooks = scene.flow.hooks)
    (hobjects : scene.flow.objects.length ≤ next.flow.objects.length)
    (htasks : next.shared.tasks = scene.shared.tasks) : scene.amend next = next := by
  rw [amend, if_pos hobjects, ← hstopped, ← hhooks, ← htasks]

/-- What may happen to a scene from the point of view of a task. -/
inductive TaskEvent (υ : Type) where
  /-- The flow is stopped. -/
  | stop
  /-- Tasks are cancelled by who waits for them. -/
  | cancel (tasks : List TaskId)
  /-- A task is made for an engine. -/
  | make (engine : String)
  /-- A task is offered to the flow, to be cancelled when the flow is stopped. -/
  | offer (task : TaskId)
  /-- A task is settled by the result of its work. -/
  | settle (task : TaskId) (result : Except Fault Unit)
  /-- Something else happens. -/
  | elsewhere (next : Scene υ)

namespace TaskEvent

/-- The scene after an event. -/
def on (scene : Scene υ) : TaskEvent υ → Scene υ
  | stop => (Act.stop.runOn scene).2
  | cancel tasks =>
    { scene with shared := { scene.shared with tasks := scene.shared.tasks.cancelAll tasks } }
  | make engine => ((Act.newTask engine).runOn scene).2
  | offer task => ((Act.onStop task).runOn scene).2
  | settle task result => ((Act.complete task result).runOn scene).2
  | elsewhere next => scene.amend next

/-- The scene after events, one after the other. -/
def onAll (scene : Scene υ) (events : List (TaskEvent υ)) : Scene υ := events.foldl on scene

/-- Whether the event brings the result of a task's work. -/
def settles (task : TaskId) : TaskEvent υ → Bool
  | settle other _ => other == task
  | _ => false

/-- A task that is offered has been made. -/
def IsMade (scene : Scene υ) : TaskEvent υ → Prop
  | offer task => task < scene.shared.tasks.table.length
  | _ => True

/-- Events that can happen one after the other: a task is offered once it has been made. -/
def Possible : Scene υ → List (TaskEvent υ) → Prop
  | _, [] => True
  | scene, event :: rest => event.IsMade scene ∧ Possible (event.on scene) rest

/-- Events happen one list after the other. -/
theorem onAll_append (scene : Scene υ) (events later : List (TaskEvent υ)) :
    onAll scene (events ++ later) = onAll (onAll scene events) later := List.foldl_append

/-- Events that can happen, and then others, can happen. -/
theorem Possible.append {scene : Scene υ} {events later : List (TaskEvent υ)}
    (h : Possible scene events) (hlater : Possible (onAll scene events) later) :
    Possible scene (events ++ later) := by
  induction events generalizing scene with
  | nil => exact hlater
  | cons event rest ih => exact ⟨h.1, ih h.2 hlater⟩

end TaskEvent

/-! ## Guarded tasks -/

/-- A task is in a state, and as long as it waits the flow has not been stopped and will cancel it when
it is. -/
structure Scene.Guards (scene : Scene υ) (id : TaskId) (state : Task.State) : Prop where
  /-- The state of the task. -/
  stateOf : scene.shared.tasks.stateOf id = some state
  /-- The flow knows a task that waits. -/
  hooked : state = .pending → scene.flow.stopped = false ∧ id ∈ scene.flow.hooks

namespace Scene.Guards

variable {scene : Scene υ} {id : TaskId} {state : Task.State}

/-- A task that is offered to a flow is guarded, and cancelled at once if the flow was stopped. -/
theorem offer (h : scene.shared.tasks.stateOf id = some .pending) :
    ((TaskEvent.offer id).on scene).Guards id (.struck scene.flow.stopped) := by
  simp only [TaskEvent.on, Act.onStop, Act.runOn_onTasks, Flow.onStop]
  cases hstopped : scene.flow.stopped with
  | true =>
    refine ⟨?_, nofun⟩
    refine (Tasks.stateOf_modify_settle _ id id .cancelled).trans ?_
    rw [if_pos rfl, h]
    rfl
  | false => exact ⟨h, fun _ => ⟨rfl, by simp⟩⟩

/-- A guarded task that is settled by a result is guarded. -/
theorem settle (h : scene.Guards id state) (result : Except Fault Unit) :
    ((TaskEvent.settle id result).on scene).Guards id (state.orElse (.ofResult result)) := by
  refine ⟨?_, fun hpending => ?_⟩
  · refine (Tasks.stateOf_modify_settle _ id id _).trans ?_
    rw [if_pos rfl, h.stateOf]
    rfl
  · exact absurd (Task.State.orElse_eq_pending.mp hpending).2 (Task.State.ofResult_ne_pending result)

end Scene.Guards

/-! ## Engines -/

/-- An engine does to tasks what may happen to them in any case: it stops the flow, cancels tasks, and
deals with tasks of its own. -/
structure Engine.Does (engine : Engine υ) (does : ObjectId → Scene υ → List (TaskEvent υ)) : Prop where
  /-- The call is what happens. -/
  onAll : ∀ object scene,
    ((engine.run object).runOn scene).2 = TaskEvent.onAll scene (does object scene)
  /-- What happens can happen. -/
  possible : ∀ object scene, TaskEvent.Possible scene (does object scene)
  /-- The engine brings the result of no task but those that are made meanwhile. -/
  spares : ∀ object scene, ∀ event ∈ does object scene, ∀ task < scene.shared.tasks.table.length,
    event.settles task = false

end EvidenceFlow
