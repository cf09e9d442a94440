import EvidenceFlow.Proofs.Engine.JobCalls

/-!
# Jobs that are handed over

An element that works apart from the flow registers a task on its result object, offers it to the flow
and hands a job over. An executor that takes the job keeps it or runs it at once, which are courses that
the job can take.
-/

namespace EvidenceFlow

variable {υ : Type}

/-- Whether an executor keeps jobs until it is told to run them; others run them at once. -/
def Executor.isManual : Executor → Bool
  | .manual => true
  | _ => false

namespace EngineElement

section

variable {e : EngineElement υ} {job : Job} {scene : Scene υ} {state : Task.State}

/-- Nothing settles a guarded task that does not wait. -/
theorem modify_settle_of_ne_pending (h : scene.Guards job.task state) (hdone : state ≠ .pending)
    (next : Task.State) :
    { scene with shared :=
        { scene.shared with tasks := scene.shared.tasks.modify job.task (·.settle next) } } = scene := by
  rw [Tasks.modify_settle_of_ne_pending h.stateOf hdone next]

/-- A guarded task whose job ends without settling it fails for that reason, if it waits. -/
theorem runOn_abandon (h : scene.Guards job.task state) (engine reason : String) :
    (abandon job engine reason).runOn scene =
      (.ok (), (TaskEvent.settle job.task (.error (.element engine reason))).on scene) := by
  rw [abandon, Act.runOn_bind, Act.runOn_get]
  dsimp only
  by_cases hpending : state = .pending
  · have hwaits : ¬scene.shared.tasks.isDone job.task := by
      rw [Tasks.isDone_iff h.stateOf]
      exact not_not_intro hpending
    rw [if_neg hwaits, (h.hooked hpending).1, if_neg Bool.false_ne_true, Act.runOn_discard]
    rfl
  · have hdone := (Tasks.isDone_iff h.stateOf).mpr hpending
    rw [if_pos hdone]
    exact congrArg (Prod.mk _) (modify_settle_of_ne_pending h hpending _).symm

/-- A job that is dropped fails its task if that waits. -/
theorem runOn_dropJob (h : scene.Guards job.task state) :
    (e.dropJob job).runOn scene =
      (.ok (), (TaskEvent.settle job.task (.error (.element e.engine.name droppedUnrun))).on scene) :=
  runOn_abandon h _ _

end

/-- The job that is handed over for a result object. -/
def jobFor (e : EngineElement υ) (object : ObjectId) (key : Option Fingerprint) (scene : Scene υ) : Job where
  task := scene.shared.tasks.table.length
  flow := scene.flow.id
  object
  key
  element := e.number

/-- The scene once the task of a job is made and registered on the result object. -/
def registered (e : EngineElement υ) (dispatch : Dispatch) (object : ObjectId) (scene : Scene υ) :
    Scene υ where
  flow := scene.flow.modifyObject object (·.register scene.shared.tasks.table.length dispatch.timeout)
  shared := { scene.shared with tasks := (scene.shared.tasks.add e.engine.name).2 }

/-- The scene on which the job is handed over: its task is registered on the result object and offered to
the flow. -/
def entrusted (e : EngineElement υ) (dispatch : Dispatch) (object : ObjectId) (scene : Scene υ) :
    Scene υ :=
  (TaskEvent.offer scene.shared.tasks.table.length).on (e.registered dispatch object scene)

/-- The course of a job before its task is offered to the flow; others have offered tasks to the flow, and
may be about to stop it. -/
def unoffered (e : EngineElement υ) (dispatch : Dispatch) (object : ObjectId) (scene : Scene υ)
    (offered : List TaskId) (pending : List StopStage) : Course υ where
  scene := e.registered dispatch object scene
  offered
  pending

/-- The course of a job from where its task is offered to the flow, which is at once or after what others do
meanwhile. -/
def dispatched (e : EngineElement υ) (dispatch : Dispatch) (object : ObjectId) (key : Option Fingerprint)
    (scene : Scene υ) (offered : List TaskId) (pending : List StopStage)
    (between : List (JobEvent υ)) : Course υ :=
  let job := e.jobFor object key scene
  ((e.unoffered dispatch object scene offered pending).after e job between).step e job
    (.holder (.offer job.task))

/-- Whether an executor takes a job. -/
def Accepts (e : EngineElement υ) (shared : Shared υ) : Executor → Prop
  | .default | .manual | .inline => True
  | .pool _ => ∀ fault, (shared.pools.lookup e.number).map Pool.accept ≠ some (.error fault)
  | .threads => ∃ threads, shared.threads.accept = .ok threads
  | .rejecting _ => False

/-- To register a task and offer it makes one more task, and leaves all else of the flow as it is. -/
theorem entrusted_spec (e : EngineElement υ) (dispatch : Dispatch) (object : ObjectId)
    (scene : Scene υ) :
    (e.entrusted dispatch object scene).flow.id = scene.flow.id ∧
      (e.entrusted dispatch object scene).flow.objects = scene.flow.objects.modify object
        (·.register scene.shared.tasks.table.length dispatch.timeout) ∧
      (e.entrusted dispatch object scene).shared.tasks.table.length =
        scene.shared.tasks.table.length + 1 := by
  simp only [entrusted, TaskEvent.on, Act.onStop, Act.runOn_onTasks, Flow.onStop]
  split <;> exact ⟨rfl, rfl, by simp [registered, Tasks.add, Tasks.cancel, Tasks.modify]⟩

/-- A task that is handed over is guarded, and cancelled if the flow was stopped before. -/
theorem guards_entrusted (e : EngineElement υ) (dispatch : Dispatch) (object : ObjectId)
    (key : Option Fingerprint) (scene : Scene υ) :
    (e.entrusted dispatch object scene).Guards (e.jobFor object key scene).task
      (.struck scene.flow.stopped) :=
  .offer (Tasks.stateOf_add_self _ _)

/-- A job is handed over on the scene where its task is registered. -/
theorem runOn_runLazily (e : EngineElement υ) (dispatch : Dispatch) (object : ObjectId)
    (key : Option Fingerprint) (scene : Scene υ) :
    (e.runLazily dispatch object key).runOn scene =
      match (e.hand (e.jobFor object key scene) dispatch.executor).runOn
        (e.entrusted dispatch object scene) with
      | (.ok (), after) => (.ok (), after)
      | (.error (.fault fault), after) =>
        (.error (.fault fault),
          (TaskEvent.settle (e.jobFor object key scene).task (.error fault)).on after)
      | (.error (.panic message), after) => (.error (.panic message), after) := by
  obtain ⟨hflow, -⟩ := e.entrusted_spec dispatch object scene
  rw [runLazily, Act.runOn_bind, Act.newTask, Act.runOn_onShared]
  dsimp only
  rw [Act.runOn_bind, Act.modifyObject, Act.runOn_onFlow]
  dsimp only
  rw [Act.runOn_bind]
  have hoffer : (Act.onStop scene.shared.tasks.table.length).runOn
      { flow := scene.flow.modifyObject object
          (·.register scene.shared.tasks.table.length dispatch.timeout)
        shared := { scene.shared with tasks := (scene.shared.tasks.add e.engine.name).2 } } =
      (.ok (), e.entrusted dispatch object scene) := rfl
  have hadd : scene.shared.tasks.add e.engine.name =
      (scene.shared.tasks.table.length, (scene.shared.tasks.add e.engine.name).2) := rfl
  rw [hadd]
  dsimp only
  rw [hoffer]
  dsimp only
  rw [Act.runOn_bind, Act.runOn_get]
  dsimp only
  have hjob : ({ task := scene.shared.tasks.table.length, flow := scene.flow.id, object, key
                 element := e.number } : Job) = e.jobFor object key scene := rfl
  rw [hflow, Act.runOn_bind, Act.runOn_modifyGet, hjob]
  rcases (e.hand (e.jobFor object key scene) dispatch.executor).runOn
    (e.entrusted dispatch object scene) with ⟨(fault | message) | _, after⟩ <;> rfl

/-- A job that is run apart from the caller does not show how it ends. -/
theorem runOn_runApart (e : EngineElement υ) (job : Job) (scene : Scene υ) :
    (e.runApart job).runOn scene = (.ok (), ((e.runJob job).runOn scene).2) := by
  rw [runApart, Act.runOn_discard, Act.runOn_modifyGet]
  rfl

/-- A job ends with no fault but that of its task. -/
theorem runJob_ends (e : EngineElement υ) (job : Job) (scene : Scene υ) (fault : Fault) :
    ((e.runJob job).runOn scene).1 ≠ .error (.fault fault) := by
  have hfinish (result : Except Fault Unit) (scene : Scene υ) :
      ((e.finish job result).runOn scene).1 = .ok () := by
    rw [finish, Act.runOn_bind, Act.runOn_get]
    dsimp only
    split <;> rfl
  have habandon (scene : Scene υ) : ((abandon job e.engine.name brokenOff).runOn scene).1 = .ok () := by
    rw [abandon, Act.runOn_bind, Act.runOn_get]
    dsimp only
    split
    · rfl
    · split <;> rfl
  have hok {ended : Except Halt Unit} (hended : ended = .ok ()) : ended ≠ .error (.fault fault) := by
    rw [hended]
    intro h
    cases h
  rw [runJob, Act.runOn_bind, Act.runOn_get]
  dsimp only
  split
  · exact hok rfl
  · rw [Act.runOn_bind, Act.runOn_modifyGet]
    dsimp only
    rcases (e.engine.run job.object).runOn scene with ⟨(fault | message) | _, left⟩
    · exact hok (hfinish (.error fault) left)
    · dsimp only
      rw [Act.runOn_bind]
      rcases hend : (abandon job e.engine.name brokenOff).runOn left with ⟨_ | _, after⟩
      · have hleft := (congrArg Prod.fst hend).symm.trans (habandon left)
        cases hleft
      · intro h
        cases h
    · exact hok (hfinish (.ok ()) left)

/-- What is kept between flows once an executor has taken a job: the job is in the queue, or one more
thread has been started. -/
def taken (job : Job) (shared : Shared υ) : Executor → Shared υ
  | .manual => { shared with queue := shared.queue ++ [job] }
  | .threads =>
    match shared.threads.accept with
    | .ok threads => { shared with threads }
    | .error _ => shared
  | _ => shared

/-- To take a job has nothing to do with tasks. -/
theorem tasks_taken (job : Job) (shared : Shared υ) (executor : Executor) :
    (taken job shared executor).tasks = shared.tasks := by
  cases executor with
  | threads =>
    rw [taken]
    split <;> rfl
  | _ => rfl

/-- An executor that takes a job keeps it or runs it, and passes no fault on. -/
theorem runOn_hand (e : EngineElement υ) (job : Job) {executor : Executor} {scene : Scene υ}
    (haccepts : e.Accepts scene.shared executor) :
    (∀ fault, ((e.hand job executor).runOn scene).1 ≠ .error (.fault fault)) ∧
      ((e.hand job executor).runOn scene).2 =
        let next := { scene with shared := taken job scene.shared executor }
        if executor.isManual then next else ((e.runJob job).runOn next).2 := by
  cases executor with
  | default =>
    rw [hand, runOn_runApart]
    exact ⟨nofun, rfl⟩
  | pool name =>
    have hhand : (e.hand job (.pool name)).runOn scene = (e.runApart job).runOn scene := by
      rw [hand, Act.runOn_bind, Act.runOn_get]
      dsimp only
      split
      · next fault hrefused => exact absurd hrefused (haccepts fault)
      · rfl
    rw [hhand, runOn_runApart]
    exact ⟨nofun, rfl⟩
  | threads =>
    obtain ⟨threads, haccept⟩ := haccepts
    have hhand : (e.hand job .threads).runOn scene =
        (e.runApart job).runOn { scene with shared := { scene.shared with threads } } := by
      rw [hand, Act.runOn_bind, Act.runOn_get]
      dsimp only
      rw [haccept]
      rfl
    rw [hhand, runOn_runApart, taken, haccept]
    exact ⟨nofun, rfl⟩
  | manual => exact ⟨nofun, rfl⟩
  | inline => exact ⟨e.runJob_ends job scene, rfl⟩
  | rejecting fault => exact haccepts.elim

/-- The scene once the executor has taken the job. -/
def handed (e : EngineElement υ) (dispatch : Dispatch) (object : ObjectId) (key : Option Fingerprint)
    (scene : Scene υ) : Scene υ :=
  let start := e.entrusted dispatch object scene
  { start with shared := taken (e.jobFor object key scene) start.shared dispatch.executor }

/-- Once the executor has taken the job there is one more task. -/
theorem length_tasks_handed (e : EngineElement υ) (dispatch : Dispatch) (object : ObjectId)
    (key : Option Fingerprint) (scene : Scene υ) :
    (e.handed dispatch object key scene).shared.tasks.table.length =
      scene.shared.tasks.table.length + 1 := by
  rw [handed, tasks_taken]
  exact (e.entrusted_spec dispatch object scene).2.2

/-- For an executor to take the job has nothing to do with tasks. -/
theorem amend_handed (e : EngineElement υ) (dispatch : Dispatch) (object : ObjectId)
    (key : Option Fingerprint) (scene : Scene υ) :
    (e.entrusted dispatch object scene).amend (e.handed dispatch object key scene) =
      e.handed dispatch object key scene :=
  Scene.amend_eq rfl rfl (Nat.le_refl _) (tasks_taken _ _ _)

/-- A job that is handed over to an executor which takes it is kept or run. -/
theorem scene_runLazily (e : EngineElement υ) (dispatch : Dispatch) (object : ObjectId)
    (key : Option Fingerprint) {scene : Scene υ} (haccepts : e.Accepts scene.shared dispatch.executor) :
    ((e.runLazily dispatch object key).runOn scene).2 =
      if dispatch.executor.isManual then e.handed dispatch object key scene
      else ((e.runJob (e.jobFor object key scene)).runOn (e.handed dispatch object key scene)).2 := by
  have haccepts' : e.Accepts (e.entrusted dispatch object scene).shared dispatch.executor := haccepts
  obtain ⟨hended, hleft⟩ := e.runOn_hand (e.jobFor object key scene) haccepts'
  refine Eq.trans ?_ hleft
  rw [runOn_runLazily]
  rcases hhand : (e.hand (e.jobFor object key scene) dispatch.executor).runOn
    (e.entrusted dispatch object scene) with ⟨(fault | message) | _, after⟩
  · exact absurd (congrArg Prod.fst hhand) (hended fault)
  · rfl
  · rfl

/-- A job that is handed over to the queue is kept there. -/
theorem runOn_runLazily_of_manual (e : EngineElement υ) {dispatch : Dispatch}
    (hmanual : dispatch.executor = .manual) (object : ObjectId) (key : Option Fingerprint)
    (scene : Scene υ) :
    ((e.runLazily dispatch object key).runOn scene).2 = e.handed dispatch object key scene := by
  have haccepts : e.Accepts scene.shared dispatch.executor := by
    rw [hmanual]
    trivial
  rw [e.scene_runLazily dispatch object key haccepts, hmanual]
  rfl

/-! ## Courses of jobs that are handed over -/

end EngineElement

namespace Course

variable {e : EngineElement υ} {job : Job} {c : Course υ}

/-- A task that has been made is offered in one step. -/
theorem step_offer {task : TaskId} (hmade : (c.stopping.tasks.get? task).isSome) (e : EngineElement υ)
    (job : Job) :
    ∃ next, c.stopping.step? (.offer task) = some next ∧
      c.step e job (.holder (.offer task)) = c.withStopping next := by
  refine ⟨_, if_pos hmade, ?_⟩
  rw [step, Stopping.step?, if_pos hmade]
  rfl

/-- A course on which the executor does not have the job yet; its task waits or was cancelled. -/
structure Unoffered (c : Course υ) (job : Job) : Prop where
  /-- No task that was offered to the flow falls out of all hands. -/
  guarded : c.stopping.Guarded
  /-- The result object of the job is there. -/
  object : job.object < c.scene.flow.objects.length
  /-- The task waits or was cancelled. -/
  waits : c.state? job = some .pending ∨ c.state? job = some .cancelled
  /-- The job is at its start. -/
  stage : c.stage = .held
  /-- The engine has not been called. -/
  calls : c.calls = 0
  /-- Nothing has been handed to the store. -/
  kept : c.kept = none

/-- What others do before a task is offered cancels it at most. -/
theorem Unoffered.step (h : c.Unoffered job) (e : EngineElement υ) {event : JobEvent υ}
    (hspares : event.settles job.task = false) (hother : event.isOther = true) :
    (c.step e job event).Unoffered job := by
  rcases c.step_cases e job event with ⟨-, hstage, hcalls, hkept, struck, hstruck⟩ | ⟨rfl, -⟩ |
    ⟨hnone, -⟩
  · exact ⟨guarded_step h.guarded event, Nat.lt_of_lt_of_le h.object (c.length_objects_step event),
      waits_step h.waits hspares hstruck, hstage.trans h.stage, hcalls.trans h.calls, hkept.trans h.kept⟩
  · cases hother
  · cases hother.symm.trans hnone

/-- Whatever others do before a task is offered cancels it at most. -/
theorem Unoffered.after (h : c.Unoffered job) (e : EngineElement υ) {between : List (JobEvent υ)}
    (hspared : job.Spared between) (hothers : ∀ event ∈ between, event.isOther = true) :
    (c.after e job between).Unoffered job := by
  induction between generalizing c with
  | nil => exact h
  | cons event rest ih =>
    obtain ⟨hevent, hrest⟩ := List.forall_mem_cons.mp hspared
    exact ih (h.step e hevent (hothers event List.mem_cons_self)) hrest fun other hother =>
      hothers other (List.mem_cons_of_mem _ hother)

/-- A job whose task is offered begins a sound course. -/
theorem Unoffered.offer (h : c.Unoffered job) (e : EngineElement υ) :
    (∃ state, (c.step e job (.holder (.offer job.task))).Sound job state) ∧
      (c.step e job (.holder (.offer job.task))).stage = .held := by
  have hmade : (c.stopping.tasks.get? job.task).isSome := by
    rcases h.waits with hstate | hstate <;>
    · obtain ⟨task, htask, -⟩ := Option.map_eq_some_iff.mp hstate
      exact Option.isSome_of_eq_some htask
  obtain ⟨next, hstep, hoffered⟩ := step_offer hmade e job
  have hstate : (c.withStopping next).state? job = c.state? job := by
    obtain ⟨-, rfl⟩ := Stopping.of_offer hstep
    exact congrArg (Tasks.stateOf · _) (Stopping.tasks_offer _ _)
  have hobject : job.object < (c.withStopping next).scene.flow.objects.length :=
    Nat.lt_of_lt_of_eq h.object (congrArg List.length (Stopping.objects_step hstep)).symm
  have hmem : job.task ∈ (c.withStopping next).offered := ((Stopping.marks_step hstep).2 _).mpr (.inr rfl)
  have hguarded : next.Guarded := h.guarded.step hstep
  rw [hoffered]
  refine ⟨?_, h.stage⟩
  rcases h.waits with hwaits | hcancelled
  · refine ⟨.pending, hguarded, hmem, hobject, hstate.trans hwaits, ?_⟩
    rw [withStopping, h.stage, h.calls, h.kept]
    exact ⟨.inl rfl, rfl, rfl⟩
  · refine ⟨.cancelled, hguarded, hmem, hobject, hstate.trans hcancelled, ?_⟩
    rw [withStopping, h.stage, h.calls, h.kept]
    exact ⟨.inr rfl, rfl, rfl⟩

end Course

namespace EngineElement

variable {e : EngineElement υ} {dispatch : Dispatch} {object : ObjectId} {key : Option Fingerprint}
  {scene : Scene υ} {offered : List TaskId} {pending : List StopStage}

/-- The task of a job that is registered on the result object waits. -/
theorem unoffered_unoffered (e : EngineElement υ) (dispatch : Dispatch) (key : Option Fingerprint)
    (hguarded : ({ flow := scene.flow, tasks := scene.shared.tasks, offered, pending } : Stopping).Guarded)
    (hobject : object < scene.flow.objects.length) :
    (e.unoffered dispatch object scene offered pending).Unoffered (e.jobFor object key scene) where
  guarded := by
    have hmade := hguarded.of_tasks fun task state hstate =>
      ⟨state, Tasks.stateOf_add e.engine.name hstate, fun hwaits => hwaits⟩
    exact hmade.of_flow (e.registered dispatch object scene).flow rfl rfl
  object := by
    have hlength : (e.registered dispatch object scene).flow.objects.length = scene.flow.objects.length :=
      List.length_modify ..
    exact Nat.lt_of_lt_of_eq hobject hlength.symm
  waits := .inl (Tasks.stateOf_add_self _ _)
  stage := rfl
  calls := rfl
  kept := rfl

/-- The task of a job has been made before it is offered. -/
theorem isSome_registered (e : EngineElement υ) (dispatch : Dispatch) (object : ObjectId)
    (key : Option Fingerprint) (scene : Scene υ) (offered : List TaskId) (pending : List StopStage) :
    ((e.unoffered dispatch object scene offered pending).stopping.tasks.get?
      (e.jobFor object key scene).task).isSome := by
  simp [unoffered, Course.stopping, registered, jobFor, Tasks.get?, Tasks.add]

/-- The task of a job is offered in one step. -/
theorem dispatched_eq (e : EngineElement υ) (dispatch : Dispatch) (object : ObjectId)
    (key : Option Fingerprint) (scene : Scene υ) (offered : List TaskId) (pending : List StopStage) :
    ∃ next, (e.unoffered dispatch object scene offered pending).stopping.step?
        (.offer (e.jobFor object key scene).task) = some next ∧
      e.dispatched dispatch object key scene offered pending [] =
        (e.unoffered dispatch object scene offered pending).withStopping next :=
  Course.step_offer (e.isSome_registered dispatch object key scene offered pending) e
    (e.jobFor object key scene)

/-- A job that is handed over begins a sound course, whatever others have done since its task was
registered. -/
theorem sound_dispatched (e : EngineElement υ) (dispatch : Dispatch) (key : Option Fingerprint)
    (hguarded : ({ flow := scene.flow, tasks := scene.shared.tasks, offered, pending } : Stopping).Guarded)
    (hobject : object < scene.flow.objects.length) {between : List (JobEvent υ)}
    (hspared : (e.jobFor object key scene).Spared between)
    (hothers : ∀ event ∈ between, event.isOther = true) :
    (∃ state, (e.dispatched dispatch object key scene offered pending between).Sound
        (e.jobFor object key scene) state) ∧
      (e.dispatched dispatch object key scene offered pending between).stage = .held :=
  ((e.unoffered_unoffered dispatch key hguarded hobject).after e hspared hothers).offer e

/-- The result object has the task of the job registered. -/
theorem exists_registered (e : EngineElement υ) (dispatch : Dispatch) (key : Option Fingerprint)
    (offered : List TaskId) (pending : List StopStage) (hobject : object < scene.flow.objects.length) :
    ∃ a, (e.dispatched dispatch object key scene offered pending []).scene.flow.object? object = some a ∧
      (e.jobFor object key scene).task ∈ a.taskIds := by
  obtain ⟨next, hstep, hstart⟩ := e.dispatched_eq dispatch object key scene offered pending
  have hobjects : next.flow.objects = scene.flow.objects.modify object
      (·.register scene.shared.tasks.table.length dispatch.timeout) := Stopping.objects_step hstep
  refine ⟨scene.flow.objects[object].register scene.shared.tasks.table.length dispatch.timeout, ?_, ?_⟩
  · rw [hstart]
    change next.flow.objects[object]? = _
    rw [hobjects, List.getElem?_modify_eq, List.getElem?_eq_getElem hobject]
    rfl
  · simp [Aspect.taskIds, Aspect.register, jobFor]

/-- Nothing but steps of who offers the task of a job lies between that and the hand-over. -/
theorem meets_entrusted (e : EngineElement υ) (dispatch : Dispatch) (object : ObjectId)
    (key : Option Fingerprint) (scene : Scene υ) (offered : List TaskId) (pending : List StopStage) :
    (e.dispatched dispatch object key scene offered pending []).Meets e (e.jobFor object key scene)
      (e.entrusted dispatch object scene) := by
  obtain ⟨next, hstep, hstart⟩ := e.dispatched_eq dispatch object key scene offered pending
  have hmade := e.isSome_registered dispatch object key scene offered pending
  obtain ⟨next', hstep', hrest⟩ := Stopping.run?_cons (Stopping.run?_offer _ hmade)
  obtain rfl := Option.some.inj (hstep.symm.trans hstep')
  rw [hstart]
  refine Course.meets_of_run (c := Course.withStopping _ next) hrest fun result hmem => ?_
  split at hmem <;> simp at hmem

/-- A job that is handed over in one go to an executor which takes it takes one of the courses that it can
take: it is kept, or it comes to its end. -/
theorem course_runLazily {does : ObjectId → Scene υ → List (TaskEvent υ)} (hdoes : e.engine.Does does)
    (haccepts : e.Accepts scene.shared dispatch.executor) :
    let job := e.jobFor object key scene
    let start := e.dispatched dispatch object key scene offered pending []
    ∃ events, job.Spared events ∧
      (start.after e job events).scene = ((e.runLazily dispatch object key).runOn scene).2 ∧
      (start.after e job events).stage = if dispatch.executor.isManual then .held else .gone := by
  intro job start
  have hheld : start.stage = .held := by
    obtain ⟨next, -, hstart⟩ := e.dispatched_eq dispatch object key scene offered pending
    exact congrArg Course.stage hstart
  have hhanded : start.Meets e job (e.handed dispatch object key scene) := by
    refine (e.meets_entrusted dispatch object key scene offered pending).trans fun next hscene => ?_
    have htaken : next.Meets e job _ :=
      next.meets_call e (.elsewhere (e.handed dispatch object key scene)) trivial rfl
    rwa [TaskEvent.on, hscene, e.amend_handed] at htaken
  rw [e.scene_runLazily dispatch object key haccepts]
  split
  · obtain ⟨steps, hother, hspared, hscene⟩ := hhanded
    exact ⟨steps, hspared, hscene, (Course.after_of_isOther hother start).1.trans hheld⟩
  · refine Course.Ends.of_meets hhanded fun next hscene hstage => ?_
    have hthere : job.task < next.scene.shared.tasks.table.length := by
      rw [hscene, length_tasks_handed]
      exact Nat.lt_succ_self _
    have hends := Course.ends_of_run hdoes (hstage.trans hheld) hthere
    rw [hscene] at hends
    exact hends.of_step rfl

end EngineElement

end EvidenceFlow
