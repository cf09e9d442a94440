import EvidenceFlow.Proofs.Engine.JobCourse

/-!
# The law of jobs

What can be said of a job that an executor has, whatever happens and in whichever order: its task is
settled once and does not wait when the job has come to its end; what the task comes to; when the engine is
called; and when the result is handed to the store.

A stop that has begun is not yet a cancellation. A job that looks for it after the flag is up withdraws, but
a job that calls the engine by then may still complete its task before who stops the flow cancels it, and a
task may be cancelled after the job has looked at it for the last time, when its result is on the way to the
store.
-/

namespace EvidenceFlow

variable {υ : Type}

/-- A read does not give up on a task that does not wait. -/
theorem Aspect.taskFault?_ne_timeout {tasks : Tasks} {registered : Aspect.Registered}
    {state : Task.State} (h : tasks.stateOf registered.task = some state) (hdone : state ≠ .pending)
    (property engines : String) (timeout : Duration) :
    taskFault? tasks property registered ≠ some (.timeout property engines timeout) := by
  obtain ⟨task, htask, rfl⟩ := Option.map_eq_some_iff.mp h
  rw [taskFault?, htask, Option.bind_some]
  cases hstate : task.state with
  | pending => exact absurd hstate hdone
  | completed => nofun
  | failed cause => nofun
  | cancelled => nofun

namespace EngineElement

/-- The result of a task's work, by how the call of the engine ended. -/
def resultOf (e : EngineElement υ) : Except Halt Unit → Except Fault Unit
  | .ok () => .ok ()
  | .error (.fault fault) => .error fault
  | .error (.panic _) => .error (.element e.engine.name brokenOff)

/-- The task of a job that an executor has at the start is settled once and rightly, whatever happens and in
whichever order. -/
structure Resolves (e : EngineElement υ) (job : Job) (start : Course υ) : Prop where
  /-- The task is settled by the first event that brings it a state while it waits, and stays so, as it does
  if it was cancelled before. -/
  decided : ∀ events, job.Spared events → ∀ state, state ≠ .pending →
    ((start.after e job events).state? job = some state ↔
      start.state? job = some state ∨
        ∃ before event later, events = before ++ event :: later ∧
          (start.after e job before).state? job = some .pending ∧
          (start.after e job before).brings e job event = state)
  /-- Once the job has come to its end the task does not wait, and no read that waits for it gives up. -/
  settled : ∀ events, job.Spared events → (start.after e job events).stage = .gone →
    (∃ state, (start.after e job events).state? job = some state ∧ state ≠ .pending) ∧
      ∀ property registered, registered.task = job.task → ∀ engines timeout,
        Aspect.taskFault? (start.after e job events).scene.shared.tasks property registered ≠
          some (.timeout property engines timeout)
  /-- A job that is run needs nobody to come to its end or to where the engine works. If it comes to its end
  without having called the engine, the task is cancelled. -/
  ran : ∀ before later, job.Spared (before ++ .run :: later) →
    (start.after e job before).stage = .held →
    let course := start.after e job (before ++ .run :: later)
    ((∀ ended, .returns ended ∉ later) → 6 ≤ JobEvent.ownSteps later →
        course.stage = .gone ∨ course.stage = .working) ∧
      (course.stage = .gone → course.calls = 0 → course.state? job = some .cancelled)
  /-- A job whose engine has returned needs nobody to come to its end; the task is then cancelled, or
  settled as the engine ended. -/
  returned : ∀ before ended later, job.Spared (before ++ .returns ended :: later) →
    (start.after e job before).stage = .working →
    let course := start.after e job (before ++ .returns ended :: later)
    (9 ≤ JobEvent.ownSteps later → course.stage = .gone) ∧
      (course.stage = .gone → course.state? job = some .cancelled ∨
        course.state? job = some (.ofResult (e.resultOf ended)))
  /-- A job that is dropped needs nobody to come to its end and does not call the engine; the task is then
  cancelled, or has failed. -/
  dropped : ∀ before later, job.Spared (before ++ .drop :: later) →
    (start.after e job before).stage = .held →
    let course := start.after e job (before ++ .drop :: later)
    (3 ≤ JobEvent.ownSteps later → course.stage = .gone) ∧ course.calls = 0 ∧
      (course.stage = .gone → course.state? job = some .cancelled ∨
        course.state? job = some (.failed (.element e.engine.name droppedUnrun)))
  /-- If a stop has begun, or the task is cancelled, before the job looks for it, the engine is never called
  and the task is cancelled when the job has come to its end. -/
  warned : ∀ before later, job.Spared (before ++ later) →
    ((start.after e job before).stage = .held ∨ (start.after e job before).stage = .begun) ∧
        ((start.after e job before).scene.flow.stopped = true ∨
          (start.after e job before).state? job = some .cancelled) ∨
      (start.after e job before).stage = .asking ∧
        (start.after e job before).state? job = some .cancelled →
    let course := start.after e job (before ++ later)
    course.calls = 0 ∧ (course.stage = .gone → course.state? job = some .cancelled)
  /-- Once the flow has been stopped and nobody is about to stop it or to cancel a task for that, the task
  does not wait: it is cancelled unless the job has settled it before. -/
  stopped : ∀ events, job.Spared events → (start.after e job events).scene.flow.stopped = true →
    (start.after e job events).stopping.isQuiet = true →
    (start.after e job events).state? job ≠ some .pending ∧
      ((start.after e job events).stage.isOpen = true →
        (start.after e job events).state? job = some .cancelled)
  /-- The task is not cancelled unless the flow is stopped or somebody cancels the task. -/
  calm : ∀ events, job.Spared events → start.scene.flow.stopped = false →
    start.state? job ≠ some .cancelled → .holder .raise ∉ events → .strike job.task ∉ events →
    (start.after e job events).state? job ≠ some .cancelled
  /-- A job that has come to its end has handed its result to the store exactly if it found, after the engine
  had succeeded, that the task was not cancelled. -/
  handed : ∀ events, job.Spared events → (start.after e job events).stage = .gone →
    ((start.after e job events).kept ≠ none ↔
      ∃ before later, events = before ++ .own :: later ∧ (start.after e job before).stage = .returned ∧
        (start.after e job before).state? job ≠ some .cancelled)
  /-- By a step of its own the job hands a result to the store, or leaves the stores as they are. -/
  stored : ∀ before, job.Spared before →
    let course := start.after e job before
    let next := start.after e job (before ++ [.own])
    (∃ copy, course.kept = none ∧ next.kept = some copy ∧
        next.scene.shared = e.keepIn job.key copy course.scene.shared) ∨
      next.kept = course.kept ∧ next.scene.shared.results = course.scene.shared.results
  /-- The engine is called once at most, a result is handed to the store after a call only, and before the
  task is completed. -/
  counted : ∀ events, job.Spared events →
    (start.after e job events).calls ≤ 1 ∧
      ((start.after e job events).kept ≠ none → (start.after e job events).calls = 1) ∧
      ((start.after e job events).state? job = some .completed → (start.after e job events).kept ≠ none)

variable {e : EngineElement υ} {job : Job} {start c : Course υ} {state : Task.State}

/-- A job that has come to its end leaves its task settled. -/
theorem state?_of_gone (h : c.Sound job state) (hgone : c.stage = .gone) : state ≠ .pending := by
  have hfits := h.fits
  rw [hgone] at hfits
  exact hfits.2.2.2

/-- A job that is going to bring its task a result has done so when it has come to its end, or the task is
cancelled. -/
theorem ends_as_told (h : c.Sound job state) {result : Except Fault Unit} (htells : c.Tells e job result)
    {later : List (JobEvent υ)} (hspared : job.Spared later)
    (hgone : (c.after e job later).stage = .gone) :
    (c.after e job later).state? job = some .cancelled ∨
      (c.after e job later).state? job = some (.ofResult result) := by
  have hlast := (h.induct (P := Course.Tells e job result)
    (fun c state event _ hc hevent => hc.tells_step hevent) hspared htells).2
  rcases hlast with ⟨-, htells⟩ | hsettled
  · rw [hgone] at htells
    exact htells.elim
  · exact hsettled

/-- The task of a job whose engine has returned comes to the result or is cancelled. -/
theorem tells_returned (h : c.Sound job state) (hworking : c.stage = .working) (ended : Except Halt Unit) :
    (c.step e job (.returns ended)).Tells e job (e.resultOf ended) := by
  have hnext : c.step e job (.returns ended) = c.goTo (.ofEnd ended) := by rw [Course.step, hworking]
  have hwaits := h.waits (by rw [hworking]; rfl)
  rw [hnext]
  rcases hwaits with rfl | rfl
  · refine .inl ⟨h.state?, ?_⟩
    rcases ended with (fault | message) | _ <;> rfl
  · exact .inr (.inl h.state?)

/-- The task of a job that is dropped fails for that or is cancelled. -/
theorem tells_dropped (h : c.Sound job state) (hheld : c.stage = .held) :
    (c.step e job .drop).Tells e job (.error (.element e.engine.name droppedUnrun)) := by
  have hnext : c.step e job .drop = c.goTo (.leaving droppedUnrun) := by rw [Course.step, hheld]
  have hwaits := h.waits (by rw [hheld]; rfl)
  rw [hnext]
  rcases hwaits with rfl | rfl
  · exact .inl ⟨h.state?, rfl⟩
  · exact .inr (.inl h.state?)

/-- The stores change by what the job hands over only, which it does once at most. -/
theorem stored_goOn (h : c.Sound job state) (e : EngineElement υ) :
    (∃ copy, c.kept = none ∧ (c.goOn e job).kept = some copy ∧
        (c.goOn e job).scene.shared = e.keepIn job.key copy c.scene.shared) ∨
      (c.goOn e job).kept = c.kept ∧ (c.goOn e job).scene.shared.results = c.scene.shared.results := by
  have hfits := h.fits
  rw [Course.goOn]
  cases hstage : c.stage <;> rw [hstage] at hfits
  case keeping copy => exact .inl ⟨copy, hfits.2.2, rfl, rfl⟩
  case asking =>
    dsimp only
    split <;> exact .inr ⟨rfl, rfl⟩
  all_goals exact .inr ⟨rfl, rfl⟩

/-! ## From the events on that a job waits for -/

/-- A job that is run needs nobody to come to its end or to where the engine works, and its task is cancelled
if it ends without a call. -/
theorem ran_of_held (h : c.Sound job state) (hheld : c.stage = .held) {later : List (JobEvent υ)}
    (hspared : job.Spared (.run :: later)) :
    let course := c.after e job (.run :: later)
    ((∀ ended, .returns ended ∉ later) → 6 ≤ JobEvent.ownSteps later →
        course.stage = .gone ∨ course.stage = .working) ∧
      (course.stage = .gone → course.calls = 0 → course.state? job = some .cancelled) := by
  obtain ⟨hrun, hlater⟩ := List.forall_mem_cons.mp hspared
  have hbegun : (c.step e job .run).stage = .begun := by
    rw [Course.step, hheld]
    rfl
  dsimp only
  rw [Course.after_cons]
  refine ⟨fun hnone hsteps => ?_, fun hgone hcalls => ?_⟩
  · have hleft : (c.step e job .run).stage.left ≤ JobEvent.ownSteps later := by
      rw [hbegun]
      exact hsteps
    have hnotHeld : (c.step e job .run).stage ≠ .held := by
      rw [hbegun]
      rintro ⟨⟩
    exact (Course.ends_of_left hnotHeld (.inr hnone) hleft).imp_right And.right
  · have huncalled := ((h.step e hrun).induct (e := e) (P := Course.Uncalled job)
      (fun c state event _ hc hevent => hc.uncalled_step hevent) hlater fun _ => .inl (.inl hbegun)).2
    refine (huncalled hcalls).resolve_left ?_
    rw [hgone]
    rintro (hstage | hstage | hstage) <;> cases hstage

/-- A job whose engine has returned needs nobody to come to its end, and its task is then cancelled or settled
as the engine ended. -/
theorem returned_of_working (h : c.Sound job state) (hworking : c.stage = .working) (ended : Except Halt Unit)
    {later : List (JobEvent υ)} (hspared : job.Spared (.returns ended :: later)) :
    let course := c.after e job (.returns ended :: later)
    (9 ≤ JobEvent.ownSteps later → course.stage = .gone) ∧
      (course.stage = .gone → course.state? job = some .cancelled ∨
        course.state? job = some (.ofResult (e.resultOf ended))) := by
  obtain ⟨hreturns, hlater⟩ := List.forall_mem_cons.mp hspared
  have hstage : (c.step e job (.returns ended)).stage = .ofEnd ended := by
    rw [Course.step, hworking]
    rfl
  have hlate : (JobStage.ofEnd ended).isLate = true ∧ (JobStage.ofEnd ended).left ≤ 9 := by
    rcases ended with (fault | message) | _ <;> simp [JobStage.ofEnd, JobStage.isLate, JobStage.left]
  dsimp only
  rw [Course.after_cons]
  refine ⟨fun hsteps => Course.gone_of_late ?_ ?_, fun hgone => ?_⟩
  · rw [hstage]
    exact hlate.1
  · rw [hstage]
    exact Nat.le_trans hlate.2 hsteps
  · exact ends_as_told (h.step e hreturns) (tells_returned h hworking ended) hlater hgone

/-- A job that is dropped needs nobody to come to its end and does not call the engine, and its task is then
cancelled or has failed. -/
theorem dropped_of_held (h : c.Sound job state) (hheld : c.stage = .held) {later : List (JobEvent υ)}
    (hspared : job.Spared (.drop :: later)) :
    let course := c.after e job (.drop :: later)
    (3 ≤ JobEvent.ownSteps later → course.stage = .gone) ∧ course.calls = 0 ∧
      (course.stage = .gone → course.state? job = some .cancelled ∨
        course.state? job = some (.failed (.element e.engine.name droppedUnrun))) := by
  obtain ⟨hdrop, hlater⟩ := List.forall_mem_cons.mp hspared
  have hleaving : c.step e job .drop = c.goTo (.leaving droppedUnrun) := by rw [Course.step, hheld]
  have hlate : (c.step e job .drop).stage.isLate = true := by
    rw [hleaving]
    rfl
  have hfits := h.fits
  rw [hheld] at hfits
  dsimp only
  rw [Course.after_cons]
  refine ⟨fun hsteps => Course.gone_of_late hlate ?_, ?_, fun hgone => ?_⟩
  · rw [hleaving]
    exact hsteps
  · rw [Course.calls_of_late hlate, hleaving]
    exact hfits.2.1
  · exact ends_as_told (h.step e hdrop) (tells_dropped h hheld) hlater hgone

/-- A job that has been warned before it looks never calls the engine, and its task is cancelled when it has
come to its end. -/
theorem cancelled_of_warned (h : c.Sound job state)
    (hwarned : (c.stage = .held ∨ c.stage = .begun) ∧
        (c.scene.flow.stopped = true ∨ c.state? job = some .cancelled) ∨
      c.stage = .asking ∧ c.state? job = some .cancelled)
    {later : List (JobEvent υ)} (hspared : job.Spared later) :
    let course := c.after e job later
    course.calls = 0 ∧ (course.stage = .gone → course.state? job = some .cancelled) := by
  have hfits := h.fits
  have hstart : c.Warned job := by
    rcases hwarned with ⟨hstage | hstage, hwarned⟩ | ⟨hstage, hwarned⟩ <;> rw [hstage] at hfits
    all_goals
      refine ⟨hfits.2.1, ?_, by rw [hstage]; exact hwarned⟩
      rw [h.state?]
      exact hfits.1.imp (congrArg some) (congrArg some)
  have hend := (h.induct (e := e) (P := Course.Warned job)
    (fun c state event _ _ hevent hc => hc.step e hevent) hspared hstart).2
  refine ⟨hend.calls, fun hgone => ?_⟩
  have hheeds := hend.heeds
  rw [hgone] at hheeds
  exact hheeds

/-! ## The law -/

/-- The task of a job is settled once and rightly, whatever happens and in whichever order. -/
theorem resolves (h : start.Sound job state) (hheld : start.stage = .held) : e.Resolves job start where
  decided events hspared next hdone := h.decided e hspared hdone
  settled events hspared hgone := by
    obtain ⟨state, hsound⟩ := h.after e hspared
    have hdone := state?_of_gone hsound hgone
    refine ⟨⟨state, hsound.state?, hdone⟩, ?_⟩
    rintro property registered hregistered engines timeout
    exact Aspect.taskFault?_ne_timeout (hregistered ▸ hsound.state?) hdone property engines timeout
  ran before later hspared hbefore := by
    obtain ⟨hfirst, hrest⟩ := List.forall_mem_append.mp hspared
    obtain ⟨state, hsound⟩ := h.after e hfirst
    rw [Course.after_append]
    exact ran_of_held hsound hbefore hrest
  returned before ended later hspared hbefore := by
    obtain ⟨hfirst, hrest⟩ := List.forall_mem_append.mp hspared
    obtain ⟨state, hsound⟩ := h.after e hfirst
    rw [Course.after_append]
    exact returned_of_working hsound hbefore ended hrest
  dropped before later hspared hbefore := by
    obtain ⟨hfirst, hrest⟩ := List.forall_mem_append.mp hspared
    obtain ⟨state, hsound⟩ := h.after e hfirst
    rw [Course.after_append]
    exact dropped_of_held hsound hbefore hrest
  warned before later hspared hwarned := by
    obtain ⟨hfirst, hlater⟩ := List.forall_mem_append.mp hspared
    obtain ⟨state, hsound⟩ := h.after e hfirst
    rw [Course.after_append]
    exact cancelled_of_warned hsound hwarned hlater
  stopped events hspared hstopped hquiet := by
    obtain ⟨state, hsound⟩ := h.after e hspared
    obtain ⟨state', hstate, hdone⟩ := hsound.guarded.settled_of_isQuiet hstopped hquiet hsound.offered
    obtain rfl := Option.some.inj (hsound.state?.symm.trans hstate)
    rw [hsound.state?]
    refine ⟨fun hwaits => hdone (Option.some.inj hwaits), fun hopen => ?_⟩
    exact congrArg some ((hsound.waits hopen).resolve_left hdone)
  calm events hspared hrunning hwaits hraise hstrike := by
    have hcalm : start.Calm job := ⟨hrunning, hwaits, by rw [hheld]; rintro ⟨⟩, by rw [hheld]; rintro ⟨⟩⟩
    refine (h.induct (e := e) (P := Course.Calm job) (fun c state event hmem hsound hevent hc => ?_)
      hspared hcalm).2.state?
    exact hsound.calm_step hevent (fun heq => hraise (heq ▸ hmem)) (fun heq => hstrike (heq ▸ hmem)) hc
  handed events hspared hgone := by
    have hfits := h.fits
    rw [hheld] at hfits
    have hnot : ¬start.Hands := by
      rintro (hcopying | hkept)
      · rw [hheld] at hcopying
        cases hcopying
      · exact hkept hfits.2.2
    have hhands := h.hands_iff hnot e hspared
    have hended : ¬JobStage.gone.isCopying = true := Bool.false_ne_true
    rw [Course.Hands, hgone, or_iff_right hended] at hhands
    refine hhands.trans ⟨?_, ?_⟩
    · rintro ⟨before, event, later, hsplit, rfl, hfound⟩
      exact ⟨before, later, hsplit, hfound⟩
    · rintro ⟨before, later, hsplit, hfound⟩
      exact ⟨before, .own, later, hsplit, rfl, hfound⟩
  stored before hspared := by
    obtain ⟨state, hsound⟩ := h.after e hspared
    rw [Course.after_append]
    exact stored_goOn hsound e
  counted events hspared := by
    obtain ⟨state, hsound⟩ := h.after e hspared
    obtain ⟨honce, hcalls, hkept⟩ := hsound.counts
    refine ⟨honce, hcalls, fun hcompleted => hkept ?_⟩
    exact Option.some.inj (hsound.state?.symm.trans hcompleted)

end EngineElement

end EvidenceFlow
