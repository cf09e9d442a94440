import EvidenceFlow.Proofs.Engine.JobCourse
import EvidenceFlow.Proofs.Engine.Process

/-!
# Jobs that nobody interrupts

What runs is a special case of what can happen step by step: a call that nobody interrupts is the list of
its steps with nothing in between. So a job that is run or dropped in one go takes one of the courses that
it can take among others, and what others do in one go is something that may happen between its steps.
-/

namespace EvidenceFlow

variable {υ α : Type}

/-- A task is done once something has been done to it that leaves every task done. -/
theorem Tasks.isDone_modify (tasks : Tasks) (id : TaskId) {f : Task → Task}
    (hdone : ∀ task, (f task).isDone = true) : (tasks.modify id f).isDone id = true := by
  rw [isDone, get?_modify, if_pos rfl]
  cases tasks.get? id with
  | none => rfl
  | some task => exact hdone task

namespace Course

variable {e : EngineElement υ} {job : Job} {c : Course υ}

/-! ## What others do -/

/-- Steps of others leave alone how far the job has come. -/
theorem after_of_isOther {events : List (JobEvent υ)} (hother : ∀ event ∈ events, event.isOther = true)
    (c : Course υ) :
    (c.after e job events).stage = c.stage ∧ (c.after e job events).calls = c.calls ∧
      (c.after e job events).kept = c.kept := by
  induction events generalizing c with
  | nil => exact ⟨rfl, rfl, rfl⟩
  | cons event rest ih =>
    have hfirst := hother event List.mem_cons_self
    obtain ⟨hstage, hcalls, hkept⟩ := ih (fun other hmem => hother other (List.mem_cons_of_mem _ hmem))
      (c.step e job event)
    rcases c.step_cases e job event with ⟨-, hstage', hcalls', hkept', -⟩ | ⟨rfl, -⟩ | ⟨hnot, -⟩
    · exact ⟨hstage.trans hstage', hcalls.trans hcalls', hkept.trans hkept'⟩
    · cases hfirst
    · rw [hfirst] at hnot
      cases hnot

/-- What holders of the flow do is what they see of it. -/
theorem after_holders {events : List StopEvent} {s : Stopping} (hrun : c.stopping.run? events = some s) :
    c.after e job (events.map .holder) = c.withStopping s := by
  induction events generalizing c with
  | nil =>
    cases hrun
    rfl
  | cons event rest ih =>
    obtain ⟨next, hstep, hrest⟩ := Stopping.run?_cons hrun
    have hfirst : c.step e job (.holder event) = c.withStopping next := by
      rw [step, hstep]
      rfl
    rw [List.map_cons, after, List.foldl_cons, hfirst]
    exact ih (c := c.withStopping next) hrest

/-- Tasks that somebody waits for are cancelled one after the other. -/
theorem scene_strikes (c : Course υ) (tasks : List TaskId) :
    (c.after e job (tasks.map .strike)).scene = (TaskEvent.cancel tasks).on c.scene := by
  induction tasks generalizing c with
  | nil => rfl
  | cons task rest ih => exact ih (c.act (Act.cancel task))

/-- Steps of others that spare the task of the job lead to the scene. -/
def Meets (e : EngineElement υ) (job : Job) (c : Course υ) (scene : Scene υ) : Prop :=
  ∃ steps : List (JobEvent υ), (∀ step ∈ steps, step.isOther = true) ∧ job.Spared steps ∧
    (c.after e job steps).scene = scene

/-- Steps of others come one after the other. -/
theorem Meets.trans {between scene : Scene υ} (h : c.Meets e job between)
    (hnext : ∀ next : Course υ, next.scene = between → next.Meets e job scene) : c.Meets e job scene := by
  obtain ⟨steps, hother, hspared, hscene⟩ := h
  obtain ⟨later, hother', hspared', hscene'⟩ := hnext _ hscene
  refine ⟨steps ++ later, List.forall_mem_append.mpr ⟨hother, hother'⟩,
    List.forall_mem_append.mpr ⟨hspared, hspared'⟩, ?_⟩
  rwa [after_append]

/-- Steps of holders of the flow are steps of others, and spare the task of the job if none is the result of
its work. -/
theorem meets_of_run {events : List StopEvent} {s : Stopping} (hrun : c.stopping.run? events = some s)
    (hspared : ∀ result, .complete job.task result ∉ events) :
    c.Meets e job { flow := s.flow, shared := { c.scene.shared with tasks := s.tasks } } := by
  refine ⟨events.map .holder, fun step hstep => ?_, fun step hstep => ?_, by rw [after_holders hrun]; rfl⟩
  · obtain ⟨event, -, rfl⟩ := List.mem_map.mp hstep
    rfl
  · obtain ⟨event, hevent, rfl⟩ := List.mem_map.mp hstep
    cases event with
    | complete task result =>
      refine beq_false_of_ne fun heq => ?_
      exact hspared result (heq ▸ hevent)
    | _ => rfl

/-- A call that nobody interrupts is a list of steps. -/
theorem meets_call (c : Course υ) (e : EngineElement υ) {job : Job} (event : TaskEvent υ)
    (hmade : event.IsMade c.scene) (hspares : event.settles job.task = false) :
    c.Meets e job (event.on c.scene) := by
  cases event with
  | stop =>
    refine meets_of_run c.stopping.run?_stop fun result hmem => ?_
    simp at hmem
  | cancel tasks =>
    refine ⟨tasks.map .strike, fun step hstep => ?_, fun step hstep => ?_, c.scene_strikes tasks⟩ <;>
      obtain ⟨task, -, rfl⟩ := List.mem_map.mp hstep <;> rfl
  | make engine =>
    have hrun : c.stopping.run? [.make engine] = some _ := rfl
    refine meets_of_run hrun fun result hmem => ?_
    simp at hmem
  | offer task =>
    have hlt : task < c.scene.shared.tasks.table.length := hmade
    have hthere : (c.scene.shared.tasks.get? task).isSome := by simp [Tasks.get?, hlt]
    refine meets_of_run (c.stopping.run?_offer hthere) fun result hmem => ?_
    split at hmem <;> simp at hmem
  | settle task result =>
    have hrun : c.stopping.run? [.complete task result] = some _ := rfl
    refine meets_of_run hrun fun other hmem => ?_
    obtain ⟨rfl, -⟩ : job.task = task ∧ other = result := by simpa using hmem
    exact absurd hspares (by simp [TaskEvent.settles])
  | elsewhere next =>
    exact ⟨[.elsewhere next], by simp [JobEvent.isOther], by simp [Job.Spared, JobEvent.settles], rfl⟩

/-- What others do in one go, call by call, is a list of steps. -/
theorem meets_calls (e : EngineElement υ) {job : Job} (events : List (TaskEvent υ)) (c : Course υ)
    (hpossible : TaskEvent.Possible c.scene events)
    (hspares : ∀ event ∈ events, event.settles job.task = false) :
    c.Meets e job (TaskEvent.onAll c.scene events) := by
  induction events generalizing c with
  | nil => exact ⟨[], nofun, nofun, rfl⟩
  | cons event rest ih =>
    refine (c.meets_call e event hpossible.1 (hspares event List.mem_cons_self)).trans fun next hscene => ?_
    have hrest := ih next (hscene ▸ hpossible.2) fun other hmem =>
      hspares other (List.mem_cons_of_mem _ hmem)
    rwa [hscene] at hrest

/-! ## What the job does -/

/-- The course comes to its end on the scene if nobody interrupts the job. -/
def Ends (e : EngineElement υ) (job : Job) (c : Course υ) (scene : Scene υ) : Prop :=
  ∃ steps, job.Spared steps ∧ (c.after e job steps).scene = scene ∧ (c.after e job steps).stage = .gone

/-- A job that has come to its end is there. -/
theorem ends_of_gone (hgone : c.stage = .gone) : c.Ends e job c.scene := ⟨[], nofun, rfl, hgone⟩

/-- What comes of the next event comes of the course. -/
theorem Ends.of_step {event : JobEvent υ} {scene : Scene υ} (hspares : event.settles job.task = false)
    (h : (c.step e job event).Ends e job scene) : c.Ends e job scene := by
  obtain ⟨steps, hspared, hscene⟩ := h
  exact ⟨event :: steps, List.forall_mem_cons.mpr ⟨hspares, hspared⟩, hscene⟩

/-- What comes of the next step of the job comes of the course. -/
theorem Ends.of_goOn (next : Course υ) {scene : Scene υ} (hnext : c.goOn e job = next)
    (h : next.Ends e job scene) : c.Ends e job scene := by
  subst hnext
  exact .of_step (rfl : JobEvent.own.settles job.task = false) h

/-- A guard settles the task that it finds waiting, and leaves one that is settled alone. -/
theorem ends_of_leaving {reason : String} (hstage : c.stage = .leaving reason) :
    c.Ends e job ((EngineElement.abandon job e.engine.name reason).runOn c.scene).2 := by
  rw [EngineElement.abandon, Act.runOn_bind, Act.runOn_get]
  dsimp only
  split
  · next hdone =>
    refine .of_goOn (c.goTo .gone) ?_ (ends_of_gone rfl)
    simp only [goOn, hstage, hdone, if_true]
  · next hwaits =>
    refine .of_goOn (c.goTo (.abandoning reason)) ?_ ?_
    · simp only [goOn, hstage, hwaits, if_neg Bool.false_ne_true]
    split
    · next hstopped =>
      refine .of_goOn (c.goTo .cancelling) ?_ ?_
      · simp only [goOn, goTo, hstopped, if_true]
      · exact .of_goOn ((c.act (Act.cancel job.task)).goTo .gone) rfl (ends_of_gone rfl)
    · next hrunning =>
      refine .of_goOn (c.goTo (.failing reason)) ?_ ?_
      · simp [goOn, goTo, hrunning]
      · exact .of_goOn ((c.act (Act.complete job.task (.error (.element e.engine.name reason)))).goTo .gone)
          rfl (ends_of_gone rfl)

/-- A job that settles its task by an act leaves nothing to its guard. -/
theorem ends_of_settled {act : Act υ α}
    (hnext : c.goOn e job = (c.act act).goTo (.leaving EngineElement.brokenOff))
    (hdone : (c.act act).scene.shared.tasks.isDone job.task = true) :
    c.Ends e job (act.runOn c.scene).2 := by
  refine .of_goOn ((c.act act).goTo (.leaving EngineElement.brokenOff)) hnext ?_
  refine .of_goOn ((c.act act).goTo .gone) ?_ (ends_of_gone rfl)
  simp only [goOn, goTo, hdone, if_true]

/-- A job that is about to settle its task does so. -/
theorem ends_of_settling {result : Except Fault Unit} (hstage : c.stage = .settling result) :
    c.Ends e job ((Act.complete job.task result).runOn c.scene).2 :=
  ends_of_settled (by rw [goOn, hstage])
    (Tasks.isDone_modify c.scene.shared.tasks job.task fun task => task.isDone_complete result)

/-- A job that withdraws cancels its task. -/
theorem ends_of_withdrawing (hstage : c.stage = .withdrawing) :
    c.Ends e job ((Act.cancel job.task).runOn c.scene).2 :=
  ends_of_settled (by rw [goOn, hstage])
    (Tasks.isDone_modify c.scene.shared.tasks job.task Task.isDone_cancel)

/-- A job that has found its task waiting after the call copies the result object, hands the copy to the
store and settles the task. -/
theorem ends_of_copying (hstage : c.stage = .copying) :
    c.Ends e job ((Act.complete job.task (.ok ())).runOn ((e.keep job.key job.object).runOn c.scene).2).2 := by
  cases hobject : c.scene.flow.object? job.object with
  | none =>
    have hkeep : ((e.keep job.key job.object).runOn c.scene).2 = c.scene := by
      rw [EngineElement.keep, Act.runOn_modify, hobject]
      dsimp only
      split <;> first | rfl | simp_all
    rw [hkeep]
    refine .of_goOn (c.goTo (.settling (.ok ()))) ?_ (ends_of_settling rfl)
    simp only [goOn, hstage, copyPart, hobject, Option.elim_none]
  | some left =>
    rw [e.runOn_keep job.key hobject]
    let copied : Aspect := { key := left.key, properties := left.properties }
    let named : Aspect := { copied with engines := left.engines }
    let copy : Aspect := { named with declared := left.declared }
    refine .of_goOn (c.goTo (.copyingEngines copied)) ?_ ?_
    · simp only [goOn, hstage, copyPart, hobject, Option.elim_some, copied]
    refine .of_goOn (c.goTo (.copyingDeclared named)) ?_ ?_
    · simp only [goOn, goTo, copyPart, hobject, Option.elim_some, named]
    refine .of_goOn (c.goTo (.keeping copy)) ?_ ?_
    · simp only [goOn, goTo, copyPart, hobject, Option.elim_some, copy]
    exact .of_goOn
      { c with
        scene := { c.scene with shared := e.keepIn job.key copy c.scene.shared }
        stage := .settling (.ok ())
        kept := some copy } rfl (ends_of_settling rfl)

/-- A job whose engine has succeeded keeps the result, unless its task was cancelled, and settles it. -/
theorem ends_of_returned (hstage : c.stage = .returned) :
    c.Ends e job ((e.finish job (.ok ())).runOn c.scene).2 := by
  rw [EngineElement.finish, Act.runOn_bind, Act.runOn_get]
  simp only [Except.toBool, Bool.true_and]
  cases hcancelled : c.scene.shared.tasks.isCancelled job.task with
  | true =>
    refine .of_goOn (c.goTo (.settling (.ok ()))) ?_ (ends_of_settling rfl)
    simp only [goOn, hstage, hcancelled, if_true]
  | false =>
    refine .of_goOn (c.goTo .copying) ?_ (ends_of_copying rfl)
    simp [goOn, hstage, hcancelled]

/-- What comes after steps of others comes of the course. -/
theorem Ends.of_meets {between scene : Scene υ} (hmeets : c.Meets e job between)
    (h : ∀ next : Course υ, next.scene = between → next.stage = c.stage → next.Ends e job scene) :
    c.Ends e job scene := by
  obtain ⟨steps, hother, hspared, hscene⟩ := hmeets
  obtain ⟨later, hspared', hlater⟩ := h _ hscene (after_of_isOther hother c).1
  refine ⟨steps ++ later, List.forall_mem_append.mpr ⟨hspared, hspared'⟩, ?_⟩
  rwa [after_append]

/-- A job whose engine has ended comes to its end as it does when it is run in one go. -/
theorem ends_of_returns (c : Course υ) (e : EngineElement υ) (job : Job) (hworking : c.stage = .working)
    (ended : Except Halt Unit) :
    c.Ends e job (match ended with
      | .ok () => ((e.finish job (.ok ())).runOn c.scene).2
      | .error (.fault fault) => ((e.finish job (.error fault)).runOn c.scene).2
      | .error (.panic _) =>
        ((EngineElement.abandon job e.engine.name EngineElement.brokenOff).runOn c.scene).2) := by
  have hnext : c.step e job (.returns ended) = c.goTo (.ofEnd ended) := by rw [step, hworking]
  refine .of_step (rfl : (JobEvent.returns ended).settles job.task = false) ?_
  rw [hnext]
  rcases ended with (fault | message) | _
  · exact ends_of_settling rfl
  · exact ends_of_leaving rfl
  · exact ends_of_returned rfl

/-- A job that is run in one go takes one of the courses that it can take. -/
theorem ends_of_run {does : ObjectId → Scene υ → List (TaskEvent υ)} (hdoes : e.engine.Does does)
    (hheld : c.stage = .held) (hthere : job.task < c.scene.shared.tasks.table.length) :
    (c.step e job .run).Ends e job ((e.runJob job).runOn c.scene).2 := by
  have hrun : c.step e job .run = c.goTo .begun := by rw [step, hheld]
  rw [hrun, EngineElement.runJob, Act.runOn_bind, Act.runOn_get]
  dsimp only
  cases hstopped : c.scene.flow.stopped with
  | true =>
    refine .of_goOn (c.goTo .withdrawing) ?_ (ends_of_withdrawing rfl)
    simp only [goOn, goTo, hstopped, if_true]
  | false =>
    refine .of_goOn (c.goTo .asking) ?_ ?_
    · simp [goOn, goTo, hstopped]
    cases hcancelled : c.scene.shared.tasks.isCancelled job.task with
    | true =>
      refine .of_goOn (c.goTo .withdrawing) ?_ (ends_of_withdrawing rfl)
      simp only [goOn, goTo, hcancelled, if_true]
    | false =>
      refine .of_goOn { c with stage := .working, calls := c.calls + 1 } ?_ ?_
      · simp [goOn, goTo, hcancelled]
      refine .of_meets (meets_calls e (does job.object c.scene) _ (hdoes.possible job.object c.scene)
        fun event hevent => hdoes.spares job.object c.scene event hevent job.task hthere)
        fun next hscene hworking => ?_
      have hends (ended : Except Halt Unit) := next.ends_of_returns e job hworking ended
      rw [hscene, ← hdoes.onAll] at hends
      rw [if_neg (by simp), Act.runOn_bind, Act.runOn_modifyGet]
      generalize (e.engine.run job.object).runOn c.scene = called at hends ⊢
      obtain ⟨(fault | message) | _, left⟩ := called
      · exact hends (.error (.fault fault))
      · have hbroken := hends (.error (.panic message))
        dsimp only at hbroken ⊢
        rw [Act.runOn_bind]
        generalize (EngineElement.abandon job e.engine.name EngineElement.brokenOff).runOn left =
          guarded at hbroken ⊢
        obtain ⟨_ | _, after⟩ := guarded <;> exact hbroken
      · exact hends (.ok ())

/-- A job that is dropped in one go takes one of the courses that it can take. -/
theorem ends_of_drop (hheld : c.stage = .held) :
    (c.step e job .drop).Ends e job ((e.dropJob job).runOn c.scene).2 := by
  have hdrop : c.step e job .drop = c.goTo (.leaving EngineElement.droppedUnrun) := by rw [step, hheld]
  rw [hdrop]
  exact ends_of_leaving rfl

end Course

end EvidenceFlow
