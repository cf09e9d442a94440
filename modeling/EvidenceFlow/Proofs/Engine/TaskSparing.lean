import EvidenceFlow.Proofs.Engine.TaskEvents

/-!
# What acts do to the tasks of others

A job that is run or dropped deals with its own task. To the tasks of other jobs it is part of what may
happen meanwhile, be they of the same flow or of another one.
-/

namespace EvidenceFlow

variable {υ α β : Type}

/-! ## What acts do to a task -/

/-- To cancel tasks makes none and takes none away. -/
theorem Tasks.length_cancelAll (tasks : Tasks) (ids : List TaskId) :
    (tasks.cancelAll ids).table.length = tasks.table.length := by
  induction ids generalizing tasks with
  | nil => rfl
  | cons id rest ih => exact (ih (tasks.cancel id)).trans (List.length_modify ..)

/-- No event takes tasks away. -/
theorem TaskEvent.length_tasks_le (events : List (TaskEvent υ)) (scene : Scene υ) :
    scene.shared.tasks.table.length ≤ (onAll scene events).shared.tasks.table.length := by
  have hone (event : TaskEvent υ) (scene : Scene υ) :
      scene.shared.tasks.table.length ≤ (event.on scene).shared.tasks.table.length := by
    cases event with
    | stop => exact Nat.le_of_eq (Tasks.length_cancelAll _ _).symm
    | cancel tasks => exact Nat.le_of_eq (Tasks.length_cancelAll _ _).symm
    | make engine => simp [on, Act.newTask, Tasks.add]
    | offer task =>
      simp only [on, Act.onStop, Act.runOn_onTasks, Flow.onStop]
      split
      · exact Nat.le_of_eq (Tasks.length_cancelAll _ [task]).symm
      · exact Nat.le_refl _
    | settle task result => exact Nat.le_of_eq (List.length_modify ..).symm
    | elsewhere next => exact Nat.le_refl _
  induction events generalizing scene with
  | nil => exact Nat.le_refl _
  | cons event rest ih => exact Nat.le_trans (hone event scene) (ih _)

/-- From the point of view of a task an act is what may happen meanwhile. -/
def Act.Spares (act : Act υ α) (task : TaskId) : Prop :=
  ∀ scene : Scene υ, task < scene.shared.tasks.table.length →
    ∃ events, (act.runOn scene).2 = TaskEvent.onAll scene events ∧ TaskEvent.Possible scene events ∧
      ∀ event ∈ events, event.settles task = false

namespace Act.Spares

variable {task : TaskId}

/-- An act that changes nothing. -/
theorem of_runOn_eq {act : Act υ α} (h : ∀ scene, (act.runOn scene).2 = scene) : act.Spares task :=
  fun scene _ => ⟨[], h scene, trivial, nofun⟩

/-- An act that is one event. -/
theorem of_event {act : Act υ α} (event : Scene υ → TaskEvent υ)
    (h : ∀ scene, (act.runOn scene).2 = (event scene).on scene)
    (hmade : ∀ scene, (event scene).IsMade scene)
    (hspares : ∀ scene, (event scene).settles task = false) : act.Spares task :=
  fun scene _ => ⟨[event scene], h scene, ⟨hmade scene, trivial⟩, by simpa using hspares scene⟩

/-- Acts one after the other. -/
theorem bind {act : Act υ α} {next : α → Act υ β} (hact : act.Spares task)
    (hnext : ∀ x, (next x).Spares task) : (act >>= next).Spares task := by
  intro scene htask
  obtain ⟨events, hevents, hpossible, hspared⟩ := hact scene htask
  rw [runOn_bind]
  rcases hrun : act.runOn scene with ⟨halt | x, after⟩
  · rw [hrun] at hevents
    exact ⟨events, hevents, hpossible, hspared⟩
  · rw [hrun] at hevents
    have hlength := TaskEvent.length_tasks_le events scene
    rw [← hevents] at hlength
    obtain ⟨later, hlater, hpossible', hspared'⟩ := hnext x after (Nat.lt_of_lt_of_le htask hlength)
    refine ⟨events ++ later, ?_, hpossible.append (hevents ▸ hpossible'),
      List.forall_mem_append.mpr ⟨hspared, hspared'⟩⟩
    rw [TaskEvent.onAll_append]
    exact hlater.trans (congrArg (TaskEvent.onAll · later) hevents)

/-- An act whose value is discarded. -/
theorem discard {act : Act υ α} (h : act.Spares task) : (discard act).Spares task := by
  intro scene htask
  rw [runOn_discard]
  exact h scene htask

end Act.Spares

namespace EngineElement

variable {task : TaskId} {job : Job}

/-- The task of a job may be cancelled by the job. -/
theorem spares_cancel : (Act.cancel job.task : Act υ Unit).Spares task :=
  .of_event (fun _ => .cancel [job.task]) (fun _ => rfl) (fun _ => trivial) fun _ => rfl

/-- The task of a job may be settled by the job. -/
theorem spares_complete (hother : job.task ≠ task) (result : Except Fault Unit) :
    (Act.complete job.task result : Act υ Bool).Spares task :=
  .of_event (fun _ => .settle job.task result) (fun _ => rfl) (fun _ => trivial)
    fun _ => beq_false_of_ne hother

/-- A job whose work did not settle its task leaves other tasks alone. -/
theorem spares_abandon (hother : job.task ≠ task) (engine reason : String) :
    (abandon job engine reason : Act υ Unit).Spares task := by
  refine .bind (.of_runOn_eq fun _ => rfl) fun scene => ?_
  split
  · exact .of_runOn_eq fun _ => rfl
  · split
    · exact spares_cancel
    · exact .discard (spares_complete hother _)

/-- A job that is dropped leaves other tasks alone. -/
theorem spares_dropJob (e : EngineElement υ) (hother : job.task ≠ task) : (e.dropJob job).Spares task :=
  spares_abandon hother _ _

/-- What is left of a job leaves other tasks alone. -/
theorem spares_finish (e : EngineElement υ) (hother : job.task ≠ task) (result : Except Fault Unit) :
    (e.finish job result).Spares task := by
  have hkeep : (e.keep job.key job.object).Spares task := by
    refine .of_event (fun scene => .elsewhere ((e.keep job.key job.object).runOn scene).2)
      (fun scene => ?_) (fun _ => trivial) fun _ => rfl
    rw [TaskEvent.on, keep, Act.runOn_modify]
    dsimp only
    split <;> exact (Scene.amend_eq rfl rfl (Nat.le_refl _) rfl).symm
  refine .bind (.of_runOn_eq fun _ => rfl) fun scene => ?_
  split
  · exact .bind hkeep fun _ => .discard (spares_complete hother result)
  · exact .discard (spares_complete hother result)

/-- A job that is run leaves other tasks alone. -/
theorem spares_runJob {e : EngineElement υ} {does : ObjectId → Scene υ → List (TaskEvent υ)}
    (hdoes : e.engine.Does does) (hother : job.task ≠ task) : (e.runJob job).Spares task := by
  have hengine : (modifyGet (e.engine.run job.object).runOn : Act υ (Except Halt Unit)).Spares task :=
    fun scene htask => ⟨does job.object scene, hdoes.onAll job.object scene,
      hdoes.possible job.object scene, fun event hevent =>
        hdoes.spares job.object scene event hevent task htask⟩
  refine .bind (.of_runOn_eq fun _ => rfl) fun scene => ?_
  split
  · exact spares_cancel
  · refine .bind hengine fun ended => ?_
    rcases ended with (fault | message) | _
    · exact e.spares_finish hother _
    · exact .bind (spares_abandon hother _ _) fun _ => .of_runOn_eq fun _ => rfl
    · exact e.spares_finish hother _

end EngineElement

/-! ## What acts on other flows do to a task -/

namespace TaskEvent

/-- What an event of another scene is to a flow that shares with it what is kept between flows. -/
def mirror (flow : Flow) (scene : Scene υ) : TaskEvent υ → TaskEvent υ
  | stop => .cancel scene.flow.hooks
  | offer task =>
    if scene.flow.stopped then .cancel [task] else .elsewhere { flow, shared := scene.shared }
  | elsewhere next => .elsewhere { flow, shared := next.shared }
  | event => event

/-- The other flow sees just what becomes of what is kept between flows. -/
theorem on_mirror (flow : Flow) (scene : Scene υ) (event : TaskEvent υ) :
    (event.mirror flow scene).on { flow, shared := scene.shared } =
      { flow, shared := (event.on scene).shared } := by
  have helsewhere (shared : Shared υ) (htasks : shared.tasks = scene.shared.tasks) :
      Scene.amend { flow, shared := scene.shared } { flow, shared } = { flow, shared } :=
    Scene.amend_eq rfl rfl (Nat.le_refl _) htasks
  cases event with
  | offer task =>
    simp only [mirror, on, Act.onStop, Act.runOn_onTasks, Flow.onStop]
    cases scene.flow.stopped with
    | true => rfl
    | false => exact helsewhere scene.shared rfl
  | elsewhere next => exact helsewhere { next.shared with tasks := scene.shared.tasks } rfl
  | _ => rfl

/-- A mirrored event brings the result of a task's work if the event does. -/
theorem settles_mirror (flow : Flow) (scene : Scene υ) (event : TaskEvent υ) (task : TaskId) :
    (event.mirror flow scene).settles task = event.settles task := by
  cases event with
  | offer task =>
    rw [mirror]
    split <;> rfl
  | _ => rfl

/-- A mirrored event offers no task. -/
theorem isMade_mirror (flow : Flow) (scene other : Scene υ) (event : TaskEvent υ) :
    (event.mirror flow scene).IsMade other := by
  cases event with
  | offer task =>
    rw [mirror]
    split <;> trivial
  | _ => trivial

/-- Events of another scene are events to a flow. -/
theorem exists_mirrored (flow : Flow) (events : List (TaskEvent υ)) (scene : Scene υ) {task : TaskId}
    (hspares : ∀ event ∈ events, event.settles task = false) :
    ∃ mirrored, onAll { flow, shared := scene.shared } mirrored =
        { flow, shared := (onAll scene events).shared } ∧
      Possible { flow, shared := scene.shared } mirrored ∧
      ∀ event ∈ mirrored, event.settles task = false := by
  induction events generalizing scene with
  | nil => exact ⟨[], rfl, trivial, nofun⟩
  | cons event rest ih =>
    obtain ⟨mirrored, hrest, hpossible, hspared⟩ :=
      ih (event.on scene) fun other hother => hspares other (List.mem_cons_of_mem _ hother)
    have hfirst := on_mirror flow scene event
    refine ⟨event.mirror flow scene :: mirrored, ?_, ⟨isMade_mirror flow scene _ event, ?_⟩,
      fun other hother => ?_⟩
    · exact (congrArg (onAll · mirrored) hfirst).trans hrest
    · rwa [hfirst]
    · rcases List.mem_cons.mp hother with rfl | hmem
      · rw [settles_mirror]
        exact hspares event List.mem_cons_self
      · exact hspared other hmem

end TaskEvent

end EvidenceFlow
