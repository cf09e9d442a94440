import EvidenceFlow.Proofs.Engine.Handover
import EvidenceFlow.Proofs.Engine.Process

/-!
# Jobs that are refused

An executor that refuses a job drops it, and the job settles its task when it is dropped. The element
offers the executor's fault to the task as well, but only once the executor has returned: by then the task
is settled, and what has settled it first has the last word. So processing ends with the executor's fault,
while reads of the result object report that the job was dropped, or that it was cancelled if the flow had
been stopped before.
-/

namespace EvidenceFlow

/-! ## Settled tasks stay as they are -/

/-- The task at a place is settled, and is this one. -/
structure Tasks.Settled (tasks : Tasks) (id : TaskId) (task : Task) : Prop where
  /-- It is this one. -/
  get? : tasks.get? id = some task
  /-- It is settled. -/
  isDone : task.isDone

namespace Tasks.Settled

variable {tasks : Tasks} {id : TaskId} {task : Task}

/-- To settle a task, be it the same, leaves it as it is. -/
theorem modify_settle (h : tasks.Settled id task) (other : TaskId) (next : Task.State) :
    (tasks.modify other (·.settle next)).Settled id task := by
  refine ⟨?_, h.isDone⟩
  rw [get?_modify, h.get?]
  split
  · rw [Option.map_some, Task.settle_of_isDone h.isDone]
  · rfl

/-- To cancel tasks leaves it as it is. -/
theorem cancelAll (h : tasks.Settled id task) (ids : List TaskId) : (tasks.cancelAll ids).Settled id task := by
  induction ids generalizing tasks with
  | nil => exact h
  | cons first rest ih => exact ih (h.modify_settle first .cancelled)

/-- To make a task leaves it as it is. -/
theorem add (h : tasks.Settled id task) (engine : String) : (tasks.add engine).2.Settled id task := by
  refine ⟨?_, h.isDone⟩
  have hthere : tasks.table[id]? = some task := h.get?
  rw [Tasks.get?, Tasks.add, List.getElem?_append_left (List.getElem?_eq_some_iff.mp hthere).1, hthere]

variable {υ : Type} {scene : Scene υ}

/-- Whatever happens leaves it as it is. -/
theorem on (h : scene.shared.tasks.Settled id task) (event : TaskEvent υ) :
    (event.on scene).shared.tasks.Settled id task := by
  cases event with
  | stop => exact h.cancelAll _
  | cancel ids => exact h.cancelAll ids
  | make engine => exact h.add engine
  | offer other =>
    simp only [TaskEvent.on, Act.onStop, Act.runOn_onTasks, Flow.onStop]
    split
    · exact h.modify_settle other .cancelled
    · exact h
  | settle other result => exact h.modify_settle other (.ofResult result)
  | elsewhere next => exact h

/-- Whatever happens, one after the other, leaves it as it is. -/
theorem onAll (events : List (TaskEvent υ)) {scene : Scene υ} (h : scene.shared.tasks.Settled id task) :
    (TaskEvent.onAll scene events).shared.tasks.Settled id task := by
  induction events generalizing scene with
  | nil => exact h
  | cons event rest ih => exact ih (h.on event)

end Tasks.Settled

/-- To find a result object, or to make it, stops no flow. -/
theorem Flow.stopped_objectAt (flow : Flow) (key : String) :
    (flow.objectAt key).2.stopped = flow.stopped := by
  rw [objectAt]
  split <;> rfl

/-! ## Executors that refuse -/

namespace EngineElement

variable {υ : Type} {e : EngineElement υ} {dispatch : Dispatch} {fault : Fault}

/-- The executor refuses jobs with a fault. -/
def Refuses (e : EngineElement υ) (shared : Shared υ) (fault : Fault) : Executor → Prop
  | .pool _ => (shared.pools.lookup e.number).map Pool.accept = some (.error fault)
  | .threads => shared.threads.accept = .error fault
  | .rejecting reason => reason = fault
  | _ => False

/-- An executor that refuses the job drops it and passes its fault on. -/
theorem runOn_hand_of_refuses {executor : Executor} {scene : Scene υ} (job : Job)
    (hrefuses : e.Refuses scene.shared fault executor) :
    (e.hand job executor).runOn scene = (e.refuse job fault).runOn scene := by
  cases executor with
  | pool name =>
    rw [Refuses] at hrefuses
    rw [hand, Act.runOn_bind, Act.runOn_get]
    simp only [hrefuses]
  | threads =>
    rw [Refuses] at hrefuses
    rw [hand, Act.runOn_bind, Act.runOn_get]
    simp only [hrefuses]
  | rejecting reason =>
    obtain rfl : reason = fault := hrefuses
    rfl
  | default => exact hrefuses.elim
  | manual => exact hrefuses.elim
  | inline => exact hrefuses.elim

/-- What becomes of the task of a job that is refused. It is settled without the executor's fault. -/
def refusedTask (e : EngineElement υ) (stopped : Bool) : Task where
  engine := e.engine.name
  state := if stopped then .cancelled else .failed (.element e.engine.name droppedUnrun)

/-- The task of a refused job does not wait. -/
theorem isDone_refusedTask (e : EngineElement υ) (stopped : Bool) : (e.refusedTask stopped).isDone := by
  cases stopped <;> rfl

/-- The task of a job waits when it is handed over, unless the flow has been stopped. -/
theorem tasks_entrusted (e : EngineElement υ) (dispatch : Dispatch) (object : ObjectId) (scene : Scene υ) :
    (e.entrusted dispatch object scene).shared.tasks =
      ⟨scene.shared.tasks.table ++ [⟨e.engine.name, .struck scene.flow.stopped⟩]⟩ := by
  simp only [entrusted, registered, TaskEvent.on, Act.onStop, Act.runOn_onTasks, Flow.onStop]
  cases hstopped : scene.flow.stopped with
  | true => simp [Flow.modifyObject, hstopped, Tasks.add, Tasks.cancel, Tasks.modify, modify_concat]; rfl
  | false => simp [Flow.modifyObject, hstopped, Tasks.add]; rfl

/-- To drop the job settles the task that was handed over. -/
theorem tasks_dropped (e : EngineElement υ) (dispatch : Dispatch) (object : ObjectId) (scene : Scene υ) :
    ((TaskEvent.settle scene.shared.tasks.table.length (.error (.element e.engine.name droppedUnrun))).on
        (e.entrusted dispatch object scene)).shared.tasks =
      ⟨scene.shared.tasks.table ++ [e.refusedTask scene.flow.stopped]⟩ := by
  have hsettled : ((e.entrusted dispatch object scene).shared.tasks.modify scene.shared.tasks.table.length
      (·.complete (.error (.element e.engine.name droppedUnrun)))) =
      ⟨scene.shared.tasks.table ++ [e.refusedTask scene.flow.stopped]⟩ := by
    rw [tasks_entrusted, Tasks.modify, modify_concat]
    cases scene.flow.stopped <;> rfl
  exact hsettled

/-- The scene that a refused job leaves: its task is registered on the result object and offered to the
flow, and is settled. -/
def refusedScene (e : EngineElement υ) (dispatch : Dispatch) (object : ObjectId) (scene : Scene υ) : Scene υ :=
  (TaskEvent.settle scene.shared.tasks.table.length (.error (.element e.engine.name droppedUnrun))).on
    (e.entrusted dispatch object scene)

/-- The task of a refused job is settled already when the executor's fault is offered to it. -/
theorem runOn_runLazily_of_refuses {object : ObjectId} {scene : Scene υ} (key : Option Fingerprint)
    (hrefuses : e.Refuses scene.shared fault dispatch.executor) :
    (e.runLazily dispatch object key).runOn scene =
      (.error (.fault fault), e.refusedScene dispatch object scene) := by
  have hguarded := e.guards_entrusted dispatch object key scene
  have hentrustedRefuses :
      e.Refuses (e.entrusted dispatch object scene).shared fault dispatch.executor := by
    cases hexecutor : dispatch.executor <;> rw [hexecutor] at hrefuses <;> exact hrefuses
  have handed : (e.hand (e.jobFor object key scene) dispatch.executor).runOn
      (e.entrusted dispatch object scene) = (.error (.fault fault), e.refusedScene dispatch object scene) := by
    rw [runOn_hand_of_refuses _ hentrustedRefuses, refuse, Act.runOn_bind, runOn_dropJob hguarded]
    rfl
  have hdropped := hguarded.settle (.error (.element e.engine.name droppedUnrun))
  have hsettled : (Task.State.struck scene.flow.stopped).orElse
      (.ofResult (.error (.element e.engine.name droppedUnrun))) ≠ .pending := by
    cases scene.flow.stopped <;> nofun
  rw [runOn_runLazily, handed]
  exact congrArg (Prod.mk _) (modify_settle_of_ne_pending hdropped hsettled _)

/-- A refused job changes what is kept between flows by its task only. -/
theorem shared_refusedScene (e : EngineElement υ) (dispatch : Dispatch) (object : ObjectId)
    (scene : Scene υ) :
    (e.refusedScene dispatch object scene).shared =
      { scene.shared with tasks := ⟨scene.shared.tasks.table ++ [e.refusedTask scene.flow.stopped]⟩ } := by
  rw [← e.tasks_dropped dispatch object scene]
  rfl

/-- The task of a refused job is registered on the result object, and on no other. -/
theorem objects_refusedScene (e : EngineElement υ) (dispatch : Dispatch) (object : ObjectId)
    (scene : Scene υ) :
    (e.refusedScene dispatch object scene).flow.objects = scene.flow.objects.modify object
      (·.register scene.shared.tasks.table.length dispatch.timeout) :=
  (e.entrusted_spec dispatch object scene).2.1

/-- The task of a refused job is settled. -/
theorem settled_refusedScene (e : EngineElement υ) (dispatch : Dispatch) (object : ObjectId)
    (scene : Scene υ) :
    (e.refusedScene dispatch object scene).shared.tasks.Settled scene.shared.tasks.table.length
      (e.refusedTask scene.flow.stopped) := by
  refine ⟨?_, e.isDone_refusedTask scene.flow.stopped⟩
  rw [shared_refusedScene]
  exact List.getElem?_concat_length

/-- A read that waits for the task of a refused job only reports how that was settled. -/
theorem get_of_refused {tasks : Tasks} {id : TaskId} {stopped : Bool} {a : Aspect} {timeout : Duration}
    (hsettled : tasks.Settled id (e.refusedTask stopped)) (honly : a.tasks = [⟨id, timeout⟩])
    (name : String) :
    a.get tasks name = .error (.lazyRead
      (if stopped then .cancelled name e.engine.name
      else .failed name e.engine.name (.element e.engine.name droppedUnrun))) := by
  rw [Aspect.get, Aspect.wait, honly, List.filterMap_cons, Aspect.taskFault?, hsettled.get?]
  cases stopped <;> rfl

/-! ## Processing -/

/-- A look-up leaves alone the tasks and what takes over jobs. -/
theorem lookIn_spec (e : EngineElement υ) (key : Option Fingerprint) (shared : Shared υ) :
    (e.lookIn key shared).2.tasks = shared.tasks ∧ (e.lookIn key shared).2.pools = shared.pools ∧
      (e.lookIn key shared).2.threads = shared.threads := by
  unfold lookIn
  split <;> exact ⟨rfl, rfl, rfl⟩

/-- A look-up makes no executor take jobs. -/
theorem Refuses.lookIn {shared : Shared υ} {executor : Executor} (hrefuses : e.Refuses shared fault executor)
    (key : Option Fingerprint) : e.Refuses (e.lookIn key shared).2 fault executor := by
  obtain ⟨-, hpools, hthreads⟩ := e.lookIn_spec key shared
  cases executor with
  | pool name =>
    rw [Refuses] at hrefuses ⊢
    rwa [hpools]
  | threads =>
    rw [Refuses] at hrefuses ⊢
    rwa [hthreads]
  | _ => exact hrefuses

section

variable {flow made : Flow} {shared : Shared υ} {object : ObjectId}

/-- The scene on which the job is handed over that is going to be refused. -/
def opening (e : EngineElement υ) (flow made : Flow) (shared : Shared υ) (object : ObjectId) : Scene υ where
  flow := made.modifyObject object fun a => (a.addEngine e.engine.name).addProperties e.engine.properties
  shared := (e.lookIn (e.keyOf flow) shared).2

/-- An element whose job is refused ends with the executor's fault. -/
theorem runOn_process_of_refuses (e : EngineElement υ) (hlazy : e.dispatch = some dispatch)
    (hrefuses : e.Refuses shared fault dispatch.executor)
    (hmiss : ∀ result, (e.lookIn (e.keyOf flow) shared).1 ≠ .value result)
    (hmade : flow.objectAt e.engine.key = (.ok object, made)) :
    e.process.runOn { flow, shared } =
      (.error (.fault fault), e.refusedScene dispatch object (e.opening flow made shared object)) := by
  rw [runOn_process_of_miss hmiss, e.runOn_compute _ hmade, hlazy]
  exact runOn_runLazily_of_refuses _ (hrefuses.lookIn _)

/-- What comes of a refused job. Processing ends with the executor's fault, whatever the engine would have
done, and leaves behind one settled task, which is registered on the result object: nothing is kept and
nothing waits for being run. From then on a read that waits for no other task reports that the job was
dropped, or that it was cancelled if the flow had been stopped before. So it reports the executor's fault
if and only if the flow had not been stopped and that fault is the very one of dropped jobs. -/
theorem process_of_refuses (hlazy : e.dispatch = some dispatch)
    (hrefuses : e.Refuses shared fault dispatch.executor)
    (hmiss : ∀ result, (e.lookIn (e.keyOf flow) shared).1 ≠ .value result)
    (hmade : flow.objectAt e.engine.key = (.ok object, made)) :
    let ran := e.process.runOn { flow, shared }
    let registered : Aspect.Registered := ⟨shared.tasks.table.length, dispatch.timeout⟩
    ran.1 = .error (.fault fault) ∧
      (∀ run, ({ e with engine := { e.engine with run } } : EngineElement υ).process.runOn
        { flow, shared } = ran) ∧
      ran.2.shared =
        { (e.lookIn (e.keyOf flow) shared).2 with
          tasks := ⟨shared.tasks.table ++ [e.refusedTask flow.stopped]⟩ } ∧
      ran.2.flow.objects = (made.modifyObject object fun a =>
        ((a.addEngine e.engine.name).addProperties e.engine.properties).register
          registered.task registered.timeout).objects ∧
      ∀ (events : List (TaskEvent υ)) (a : Aspect) (name : String), a.tasks = [registered] →
        let read := a.get (TaskEvent.onAll ran.2 events).shared.tasks name
        read = .error (.lazyRead
          (if flow.stopped then .cancelled name e.engine.name
          else .failed name e.engine.name (.element e.engine.name droppedUnrun))) ∧
        (read = .error (.lazyRead (.failed name e.engine.name fault)) ↔
          flow.stopped = false ∧ fault = .element e.engine.name droppedUnrun) := by
  intro ran registered
  have hran : ran = (.error (.fault fault),
      e.refusedScene dispatch object (e.opening flow made shared object)) :=
    e.runOn_process_of_refuses hlazy hrefuses hmiss hmade
  have hlengthEq : (e.opening flow made shared object).shared.tasks.table.length = registered.task :=
    congrArg (·.table.length) (e.lookIn_spec (e.keyOf flow) shared).1
  have hstoppedEq : (e.opening flow made shared object).flow.stopped = flow.stopped := by
    have hstoppedMade := flow.stopped_objectAt e.engine.key
    rw [hmade] at hstoppedMade
    exact hstoppedMade
  rw [hran]
  refine ⟨rfl, fun run => ?_, ?_, ?_, fun events a name honly => ?_⟩
  · let other : EngineElement υ := { e with engine := { e.engine with run } }
    exact other.runOn_process_of_refuses hlazy hrefuses hmiss hmade
  · rw [shared_refusedScene, hstoppedEq, opening]
    dsimp only
    rw [(e.lookIn_spec (e.keyOf flow) shared).1]
  · rw [objects_refusedScene, hlengthEq, opening]
    simp only [Flow.modifyObject, List.modify_modify_eq]
    rfl
  · have hsettled := e.settled_refusedScene dispatch object (e.opening flow made shared object)
    rw [hlengthEq, hstoppedEq] at hsettled
    intro read
    have hreads := get_of_refused (hsettled.onAll events) honly name
    refine ⟨hreads, ?_⟩
    rw [show read = _ from hreads]
    cases flow.stopped <;> simp [eq_comm]

end

/-- An engine that counts its calls, each of which is to take place on a thread of its own. -/
def counted : EngineElement Nat where
  number := 0
  engine :=
    { key := "device", name := "counted", filter := .all
      run := fun _ => Act.onShared fun shared => ((), { shared with user := shared.user + 1 }) }
  dispatch := some { timeout := .ofMillis 50, executor := .threads, owned := true }

/-- No threads are started any more. -/
def closedThreads : Shared Nat := { threads := { shutdowns := 1 }, user := 0 }

/-- Why no thread is started. -/
def threadsClosed : Fault := .executor "thread-per-job executor is shut down"

/-- The engine is not called, and whoever reads the result object learns that the job was dropped. -/
theorem process_of_refuses_of_closedThreads :
    let ran := counted.process.runOn { flow := {}, shared := closedThreads }
    counted.Refuses closedThreads threadsClosed .threads ∧
      ran.1 = .error (.fault threadsClosed) ∧ ran.2.shared.user = 0 ∧
      ∀ (events : List (TaskEvent Nat)) (a : Aspect), a.tasks = [⟨0, .ofMillis 50⟩] →
        a.get (TaskEvent.onAll ran.2 events).shared.tasks "x" =
          .error (.lazyRead (.failed "x" "counted" (.element "counted" droppedUnrun))) := by
  intro ran
  have hrefuses : counted.Refuses closedThreads threadsClosed .threads := rfl
  have hmiss : ∀ result, (counted.lookIn (counted.keyOf {}) closedThreads).1 ≠ .value result := nofun
  obtain ⟨hends, -, hleft, -, hreads⟩ := process_of_refuses rfl hrefuses hmiss rfl
  refine ⟨hrefuses, hends, ?_, fun events a honly => (hreads events a "x" honly).1⟩
  rw [hleft]
  rfl

/-- The fault of the executor ends the processing and is not the cause that a read reports. -/
theorem read_ne_of_closedThreads :
    let ran := counted.process.runOn { flow := {}, shared := closedThreads }
    ran.1 = .error (.fault threadsClosed) ∧
      ∃ a, ran.2.flow.object? 0 = some a ∧ a.tasks = [⟨0, .ofMillis 50⟩] ∧
        a.get ran.2.shared.tasks "x" ≠ .error (.lazyRead (.failed "x" "counted" threadsClosed)) := by
  intro ran
  refine ⟨rfl, _, rfl, rfl, ?_⟩
  have hread : ({ key := "device", engines := ["counted"], tasks := [⟨0, .ofMillis 50⟩] } : Aspect).get
      ran.2.shared.tasks "x" =
      .error (.lazyRead (.failed "x" "counted" (.element "counted" droppedUnrun))) := rfl
  intro hsame
  cases hread.symm.trans hsame

end EngineElement

end EvidenceFlow
