import EvidenceFlow.Engine.Course
import EvidenceFlow.Proofs.Flow.Stopping

/-!
# What every step of a course keeps

A job and those who stop its flow or cancel its task take their steps in any order. Each step brings the
task of the job a state or none, and the first state that is brought to the task stays. As long as the job
has not settled its task, that waits or was cancelled; the job calls the engine once at most and hands its
result to the store of results on the way from a call that succeeded; and it does not come to its end
before the task is settled.
-/

namespace EvidenceFlow

variable {υ : Type}

/-! ## Tasks -/

/-- To bring a task no state leaves it as it is. -/
theorem Task.settle_pending (task : Task) : task.settle .pending = task := by
  rw [settle]
  split
  · next hpending =>
    cases task with
    | mk engine state => cases state <;> first | rfl | cases hpending
  · rfl

/-- To bring a task no state leaves all tasks as they are. -/
theorem Tasks.modify_settle_pending (tasks : Tasks) (id : TaskId) :
    tasks.modify id (·.settle .pending) = tasks := by
  have hsame : (fun task : Task => task.settle .pending) = (·) := funext Task.settle_pending
  rw [modify, hsame]
  exact congrArg Tasks.mk (List.modify_id ..)

/-- A task that is brought a state is in it if it was waiting. -/
theorem Tasks.stateOf_settle_self {tasks : Tasks} {id : TaskId} {state : Task.State}
    (h : tasks.stateOf id = some state) (next : Task.State) :
    (tasks.modify id (·.settle next)).stateOf id = some (state.orElse next) := by
  rw [stateOf_modify_settle, if_pos rfl, h, Option.map_some]

/-- A task stays in its state when another one is brought a state. -/
theorem Tasks.stateOf_settle_of_ne {tasks : Tasks} {id other : TaskId} {state : Task.State}
    (h : tasks.stateOf id = some state) (hother : other ≠ id) (next : Task.State) :
    (tasks.modify other (·.settle next)).stateOf id = some state := by
  rw [stateOf_modify_settle, if_neg (Ne.symm hother), h]

/-- A task that another one may be is cancelled if it is that one. -/
theorem Tasks.stateOf_cancel {tasks : Tasks} {id : TaskId} {state : Task.State}
    (h : tasks.stateOf id = some state) (other : TaskId) :
    (tasks.cancel other).stateOf id = some (state.orElse (.struck (other == id))) := by
  by_cases hsame : other = id
  · subst hsame
    rw [beq_self_eq_true]
    exact stateOf_settle_self h .cancelled
  · rw [beq_false_of_ne hsame]
    exact (stateOf_settle_of_ne h hsame .cancelled).trans (congrArg some state.orElse_pending.symm)

namespace Stopping

variable {s t : Stopping}

/-- What holds of a flow in several hands is seen from its flag, from the tasks that wait for its stop, and
from what its holders are about to do. -/
theorem Guarded.of_flow (h : s.Guarded) (flow : Flow) (hstopped : flow.stopped = s.flow.stopped)
    (hhooks : flow.hooks = s.flow.hooks) : ({ s with flow } : Stopping).Guarded where
  watched task htask := by
    obtain ⟨state, hstate, hsafe⟩ := h.watched task htask
    refine ⟨state, hstate, fun heq => (hsafe heq).imp_left fun hhook => ?_⟩
    rwa [hhooks]
  idle hfalse := h.idle (hstopped.symm.trans hfalse)
  fetched htrue := (h.fetched (hstopped.symm.trans htrue)).imp_left hhooks.trans

/-- Any task may be brought a state. -/
theorem Guarded.settle (h : s.Guarded) (id : TaskId) (next : Task.State) :
    ({ s with tasks := s.tasks.modify id (·.settle next) } : Stopping).Guarded := by
  refine h.of_tasks fun task state hstate => ?_
  by_cases hsame : id = task
  · subst hsame
    exact ⟨_, Tasks.stateOf_settle_self hstate next, fun heq => (Task.State.orElse_eq_pending.mp heq).1⟩
  · exact ⟨state, Tasks.stateOf_settle_of_ne hstate hsame next, fun heq => heq⟩

/-- The state that a step of a holder brings to a task, if it is not the result of its work. -/
def brings (s : Stopping) (task : TaskId) : StopEvent → Task.State
  | .cancel holder =>
    match s.pending[holder]? with
    | some (.cancel (next :: _)) => .struck (next == task)
    | _ => .pending
  | _ => .pending


/-- What holders of a flow do leaves its result objects alone. -/
theorem objects_step {event : StopEvent} (hstep : s.step? event = some t) :
    t.flow.objects = s.flow.objects := by
  cases event with
  | make engine | complete task result | raise =>
    cases hstep
    rfl
  | offer task =>
    obtain ⟨-, rfl⟩ := of_offer hstep
    rw [offer]
    dsimp only
    split
    · rfl
    · rw [Flow.onStop]
      split <;> rfl
  | take holder =>
    obtain ⟨-, rfl⟩ := of_take hstep
    rfl
  | cancel holder =>
    obtain ⟨task, left, -, rfl⟩ := of_cancel hstep
    rfl

/-- A step of a holder brings a task that state, unless it is the result of the task's work. -/
theorem stateOf_step_brings {event : StopEvent} (hstep : s.step? event = some t) {task : TaskId}
    {state : Task.State} (hstate : s.tasks.stateOf task = some state)
    (hspares : ∀ result, event ≠ .complete task result) :
    t.tasks.stateOf task = some (state.orElse (s.brings task event)) := by
  have hsame : state.orElse .pending = state := state.orElse_pending
  cases event with
  | make engine =>
    cases hstep
    exact (Tasks.stateOf_add engine hstate).trans (congrArg some hsame.symm)
  | complete other result =>
    cases hstep
    have hother : other ≠ task := fun heq => hspares result (heq ▸ rfl)
    exact (Tasks.stateOf_settle_of_ne hstate hother _).trans (congrArg some hsame.symm)
  | offer other =>
    obtain ⟨-, rfl⟩ := of_offer hstep
    rw [tasks_offer, hstate]
    exact congrArg some hsame.symm
  | raise =>
    cases hstep
    exact hstate.trans (congrArg some hsame.symm)
  | take holder =>
    obtain ⟨-, rfl⟩ := of_take hstep
    exact hstate.trans (congrArg some hsame.symm)
  | cancel holder =>
    obtain ⟨next, left, hcancel, rfl⟩ := of_cancel hstep
    rw [brings, hcancel]
    exact Tasks.stateOf_cancel hstate next

end Stopping

/-! ## Steps -/

/-- Whether the event is a step of the job itself. -/
def JobEvent.isOwn : JobEvent υ → Bool
  | own => true
  | _ => false

/-- Whether somebody other than the job and its executor acts. -/
def JobEvent.isOther : JobEvent υ → Bool
  | holder _ | strike _ | elsewhere _ => true
  | _ => false

/-- Whether the event is the result of a task's work, brought by somebody other than its job. -/
def JobEvent.settles (task : TaskId) : JobEvent υ → Bool
  | holder (.complete other _) => other == task
  | _ => false

namespace Course

variable {e : EngineElement υ} {job : Job} {c : Course υ} {state : Task.State}

/-- The state of the task of the job. -/
def state? (c : Course υ) (job : Job) : Option Task.State := c.scene.shared.tasks.stateOf job.task

/-- The state that an event brings to the task of the job: it is in that state from then on if it was
waiting. -/
def brings (e : EngineElement υ) (job : Job) (c : Course υ) : JobEvent υ → Task.State
  | .holder event => c.stopping.brings job.task event
  | .strike task => .struck (task == job.task)
  | .own =>
    match c.stage with
    | .withdrawing | .cancelling => .cancelled
    | .settling result => .ofResult result
    | .failing reason => .failed (.element e.engine.name reason)
    | _ => .pending
  | _ => .pending

/-- What the holders of the flow see of a step of the job is what it brings to its task. -/
theorem stopping_goOn (c : Course υ) (e : EngineElement υ) (job : Job) :
    (c.goOn e job).stopping =
      { c.stopping with
        tasks := c.scene.shared.tasks.modify job.task (·.settle (c.brings e job .own)) } := by
  have hsame : { c.stopping with tasks := c.scene.shared.tasks.modify job.task (·.settle .pending) } =
      c.stopping := by
    rw [Tasks.modify_settle_pending]
    rfl
  have htasks (copy : Aspect) :
      (e.keepIn job.key copy c.scene.shared).tasks = c.scene.shared.tasks := by
    unfold EngineElement.keepIn
    split <;> rfl
  rw [goOn, brings]
  cases hstage : c.stage with
  | asking =>
    dsimp only
    split <;> exact hsame.symm
  | keeping copy =>
    dsimp only
    rw [hsame, stopping, htasks]
    rfl
  | withdrawing | settling result | cancelling | failing reason => rfl
  | _ => exact hsame.symm

/-- A step of the job leaves the flow alone. -/
theorem flow_goOn (c : Course υ) (e : EngineElement υ) (job : Job) :
    (c.goOn e job).scene.flow = c.scene.flow := congrArg Stopping.flow (c.stopping_goOn e job)

/-- Calls of the engine are not taken back. -/
theorem calls_le_goOn (c : Course υ) (e : EngineElement υ) (job : Job) :
    c.calls ≤ (c.goOn e job).calls := by
  rw [goOn]
  cases c.stage with
  | asking =>
    dsimp only
    split
    · exact Nat.le_refl _
    · exact Nat.le_succ _
  | _ => exact Nat.le_refl _

/-- The flow is stopped once and for all. -/
theorem stopped_step (hstopped : c.scene.flow.stopped = true) (event : JobEvent υ) :
    (c.step e job event).scene.flow.stopped = true := by
  cases event with
  | holder event =>
    rw [step]
    cases hstep : c.stopping.step? event with
    | none => exact hstopped
    | some s => exact (Stopping.marks_step hstep).1.mpr (Or.inl hstopped)
  | own =>
    rw [step, flow_goOn]
    exact hstopped
  | strike task => exact hstopped
  | elsewhere next => exact hstopped
  | run | drop | returns ended =>
    rw [step]
    split <;> exact hstopped

/-- What an event can do: others leave alone how far the job has come, and cancel its task at most; the job
goes on by itself; the executor begins to run the job or drops it, and the engine returns, which brings the
task nothing; or nothing happens. -/
theorem step_cases (c : Course υ) (e : EngineElement υ) (job : Job) (event : JobEvent υ) :
    (event.isOther = true ∧ (c.step e job event).stage = c.stage ∧
        (c.step e job event).calls = c.calls ∧ (c.step e job event).kept = c.kept ∧
        ∃ struck, c.brings e job event = .struck struck) ∨
      (event = .own ∧ c.step e job event = c.goOn e job) ∨
      (event.isOther = false ∧ event.isOwn = false ∧ c.brings e job event = .pending ∧
        (c.step e job event = c ∨
          event = .run ∧ c.stage = .held ∧ c.step e job event = c.goTo .begun ∨
          event = .drop ∧ c.stage = .held ∧
            c.step e job event = c.goTo (.leaving EngineElement.droppedUnrun) ∨
          ∃ ended, event = .returns ended ∧ c.stage = .working ∧
            c.step e job event = c.goTo (.ofEnd ended))) := by
  cases event with
  | holder event =>
    refine .inl ⟨rfl, ?_⟩
    have hstruck : ∃ struck, c.stopping.brings job.task event = .struck struck := by
      rw [Stopping.brings.eq_def]
      split
      · split
        · exact ⟨_, rfl⟩
        · exact ⟨false, rfl⟩
      · exact ⟨false, rfl⟩
    rw [step, brings]
    cases c.stopping.step? event <;> exact ⟨rfl, rfl, rfl, hstruck⟩
  | strike task => exact .inl ⟨rfl, rfl, rfl, rfl, _, rfl⟩
  | elsewhere next => exact .inl ⟨rfl, rfl, rfl, rfl, false, rfl⟩
  | own => exact .inr (.inl ⟨rfl, rfl⟩)
  | run =>
    refine .inr (.inr ⟨rfl, rfl, rfl, ?_⟩)
    rw [step]
    split
    · next hstage => exact .inr (.inl ⟨rfl, hstage, rfl⟩)
    · exact .inl rfl
  | drop =>
    refine .inr (.inr ⟨rfl, rfl, rfl, ?_⟩)
    rw [step]
    split
    · next hstage => exact .inr (.inr (.inl ⟨rfl, hstage, rfl⟩))
    · exact .inl rfl
  | returns ended =>
    refine .inr (.inr ⟨rfl, rfl, rfl, ?_⟩)
    rw [step]
    split
    · next hstage => exact .inr (.inr (.inr ⟨ended, rfl, hstage, rfl⟩))
    · exact .inl rfl

/-- An event brings the task of the job that state. -/
theorem state?_step (h : c.state? job = some state) {event : JobEvent υ}
    (hspares : event.settles job.task = false) :
    (c.step e job event).state? job = some (state.orElse (c.brings e job event)) := by
  have hsame : c.state? job = some (state.orElse .pending) :=
    h.trans (congrArg some state.orElse_pending.symm)
  cases event with
  | holder event =>
    rw [step, brings]
    cases hstep : c.stopping.step? event with
    | none =>
      have hnone : c.stopping.brings job.task event = .pending := by
        cases event with
        | cancel holder =>
          rw [Stopping.brings]
          rw [Stopping.step?] at hstep
          split at hstep <;> simp_all
        | _ => rfl
      rw [hnone]
      exact hsame
    | some s =>
      refine Stopping.stateOf_step_brings hstep h fun result heq => ?_
      rw [heq, JobEvent.settles, beq_self_eq_true] at hspares
      cases hspares
  | strike task => exact Tasks.stateOf_cancel h task
  | own =>
    have htasks := congrArg Stopping.tasks (c.stopping_goOn e job)
    change (c.goOn e job).stopping.tasks.stateOf job.task = _
    rw [htasks]
    exact Tasks.stateOf_settle_self h _
  | elsewhere next => exact hsame
  | run | drop | returns ended =>
    rw [step]
    split <;> exact hsame

/-- What has settled the task of the job stays. -/
theorem state?_step_of_ne_pending (h : c.state? job = some state) (hdone : state ≠ .pending)
    {event : JobEvent υ} (hspares : event.settles job.task = false) :
    (c.step e job event).state? job = some state := by
  rw [state?_step h hspares, Task.State.orElse_of_ne_pending hdone]

/-- A task that waits goes on to wait, or is cancelled, as long as nothing else is brought to it. -/
theorem waits_step (h : c.state? job = some .pending ∨ c.state? job = some .cancelled) {event : JobEvent υ}
    (hspares : event.settles job.task = false) {struck : Bool}
    (hstruck : c.brings e job event = .struck struck) :
    (c.step e job event).state? job = some .pending ∨ (c.step e job event).state? job = some .cancelled := by
  rcases h with hwaits | hcancelled
  · rw [state?_step hwaits hspares, hstruck]
    cases struck with
    | false => exact .inl rfl
    | true => exact .inr rfl
  · exact .inr (state?_step_of_ne_pending hcancelled nofun hspares)

/-- No event lets a task that was offered to the flow fall out of all hands. -/
theorem guarded_step (h : c.stopping.Guarded) (event : JobEvent υ) :
    (c.step e job event).stopping.Guarded := by
  cases event with
  | holder event =>
    rw [step]
    cases hstep : c.stopping.step? event with
    | none => exact h
    | some s => exact h.step hstep
  | strike task => exact h.settle task .cancelled
  | elsewhere next => exact h.of_flow _ rfl rfl
  | own =>
    rw [step, stopping_goOn]
    exact h.settle _ _
  | run | drop | returns ended =>
    rw [step]
    split <;> exact h

/-- What was offered to the flow stays noted. -/
theorem mem_offered_step {task : TaskId} (h : task ∈ c.offered) (event : JobEvent υ) :
    task ∈ (c.step e job event).offered := by
  cases event with
  | holder event =>
    rw [step]
    cases hstep : c.stopping.step? event with
    | none => exact h
    | some s => exact ((Stopping.marks_step hstep).2 task).mpr (Or.inl h)
  | strike task | elsewhere next => exact h
  | own =>
    have hoffered := congrArg Stopping.offered (c.stopping_goOn e job)
    change task ∈ (c.goOn e job).stopping.offered
    rw [hoffered]
    exact h
  | run | drop | returns ended =>
    rw [step]
    split <;> exact h

end Course

/-! ## Soundness -/

/-- Whether the job has not come any further than to settle its task, or to cancel it, as its next step. -/
def JobStage.isOpen : JobStage → Bool
  | leaving _ | abandoning _ | cancelling | failing _ | gone => false
  | _ => true

/-- What can be said of a task, of the calls of its engine and of what was kept, by the stage of its job. -/
def JobStage.Fits (stage : JobStage) (state : Task.State) (calls : Nat) (kept : Option Aspect) : Prop :=
  match stage with
  | held | begun | asking | withdrawing =>
    (state = .pending ∨ state = .cancelled) ∧ calls = 0 ∧ kept = none
  | working | returned | copying | copyingEngines _ | copyingDeclared _ | keeping _ =>
    (state = .pending ∨ state = .cancelled) ∧ calls = 1 ∧ kept = none
  | settling result =>
    (state = .pending ∨ state = .cancelled) ∧ calls = 1 ∧
      (result = .ok () → kept = none → state = .cancelled)
  | leaving _ | abandoning _ | cancelling | failing _ =>
    calls ≤ 1 ∧ (kept ≠ none → calls = 1) ∧ (state = .completed → kept ≠ none)
  | gone => calls ≤ 1 ∧ (kept ≠ none → calls = 1) ∧ (state = .completed → kept ≠ none) ∧ state ≠ .pending

/-- Nothing that can be said by the stage of a job is lost when its task may be cancelled. -/
theorem JobStage.Fits.strike {stage : JobStage} {state : Task.State} {calls : Nat} {kept : Option Aspect}
    (h : stage.Fits state calls kept) (struck : Bool) :
    stage.Fits (state.orElse (.struck struck)) calls kept := by
  cases struck with
  | false => exact (state.orElse_pending.symm ▸ h :)
  | true => cases state <;> cases stage <;> simp_all [Fits, Task.State.orElse, Task.State.struck]

namespace Course

variable {e : EngineElement υ} {job : Job} {c : Course υ} {state : Task.State}

/-- A course on which the task of the job is in a state that fits the stage of the job. -/
structure Sound (c : Course υ) (job : Job) (state : Task.State) : Prop where
  /-- No task that was offered to the flow falls out of all hands. -/
  guarded : c.stopping.Guarded
  /-- The task was offered to the flow. -/
  offered : job.task ∈ c.offered
  /-- The result object of the job is there. -/
  object : job.object < c.scene.flow.objects.length
  /-- The task is in the state. -/
  state? : c.state? job = some state
  /-- The state fits the stage. -/
  fits : c.stage.Fits state c.calls c.kept

/-- A step of the job leads to a stage that fits what the step brings to the task. -/
theorem Sound.fits_goOn (h : c.Sound job state) (e : EngineElement υ) :
    (c.goOn e job).stage.Fits (state.orElse (c.brings e job .own)) (c.goOn e job).calls
      (c.goOn e job).kept := by
  have hfits := h.fits
  obtain ⟨left, hobject⟩ : ∃ left, c.scene.flow.object? job.object = some left :=
    ⟨_, List.getElem?_eq_getElem h.object⟩
  have hcancelled := Tasks.isCancelled_iff h.state?
  have hdone := Tasks.isDone_iff h.state?
  rw [goOn, brings]
  cases hstage : c.stage <;> rw [hstage] at hfits
  case begun =>
    dsimp only [goTo]
    split <;> simpa [JobStage.Fits] using hfits
  case asking =>
    obtain ⟨hwaits, hcalls, hkept⟩ := hfits
    dsimp only [goTo]
    split <;> simp [JobStage.Fits, hwaits, hcalls, hkept]
  case withdrawing =>
    obtain ⟨rfl | rfl, hcalls, hkept⟩ := hfits <;>
      simp [JobStage.Fits, goTo, act, Task.State.orElse, hcalls, hkept]
  case returned =>
    obtain ⟨hwaits, hcalls, hkept⟩ := hfits
    dsimp only [goTo]
    split
    · next hstruck => simp [JobStage.Fits, hcalls, hcancelled.mp hstruck]
    · simp [JobStage.Fits, hwaits, hcalls, hkept]
  case copying | copyingEngines copy | copyingDeclared copy =>
    simpa [copyPart, hobject, JobStage.Fits, goTo] using hfits
  case keeping copy =>
    obtain ⟨hwaits, hcalls, -⟩ := hfits
    simp [JobStage.Fits, hwaits, hcalls]
  case settling result =>
    obtain ⟨hwaits, hcalls, hkept⟩ := hfits
    refine ⟨Nat.le_of_eq hcalls, fun _ => hcalls, fun hcompleted hnone => ?_⟩
    rcases hwaits with rfl | rfl
    · cases result with
      | ok _ => cases hkept rfl hnone
      | error fault => cases hcompleted
    · cases hcompleted
  case leaving reason =>
    dsimp only [goTo]
    split
    · next hsettled =>
      rw [Task.State.orElse_pending]
      exact ⟨hfits.1, hfits.2.1, hfits.2.2, hdone.mp hsettled⟩
    · simpa [JobStage.Fits] using hfits
  case abandoning reason =>
    dsimp only [goTo]
    split <;> simpa [JobStage.Fits] using hfits
  case cancelling =>
    obtain ⟨honce, hcalls, hkept⟩ := hfits
    refine ⟨honce, hcalls, ?_, ?_⟩ <;> cases state <;> simp_all [Task.State.orElse, act, goTo]
  case failing reason =>
    obtain ⟨honce, hcalls, hkept⟩ := hfits
    refine ⟨honce, hcalls, ?_, ?_⟩ <;> cases state <;> simp_all [Task.State.orElse, act, goTo]
  case held | working | gone => simpa [JobStage.Fits, hstage] using hfits

/-- Result objects stay in the flow. -/
theorem length_objects_step (c : Course υ) (event : JobEvent υ) :
    c.scene.flow.objects.length ≤ (c.step e job event).scene.flow.objects.length := by
  cases event with
  | holder event =>
    rw [step]
    cases hstep : c.stopping.step? event with
    | none => exact Nat.le_refl _
    | some s => exact Nat.le_of_eq (congrArg List.length (Stopping.objects_step hstep)).symm
  | strike task => exact Nat.le_refl _
  | elsewhere next =>
    simp only [step, Scene.amend]
    split <;> omega
  | own => exact Nat.le_of_eq (congrArg (·.objects.length) (c.flow_goOn e job)).symm
  | run | drop | returns ended =>
    rw [step]
    split <;> exact Nat.le_refl _

/-- A course goes on soundly whatever happens, and its task is brought what the event brings. -/
theorem Sound.step (h : c.Sound job state) (e : EngineElement υ) {event : JobEvent υ}
    (hspares : event.settles job.task = false) :
    (c.step e job event).Sound job (state.orElse (c.brings e job event)) where
  guarded := guarded_step h.guarded event
  offered := mem_offered_step h.offered event
  object := Nat.lt_of_lt_of_le h.object (c.length_objects_step event)
  state? := state?_step h.state? hspares
  fits := by
    have hfits := h.fits
    rcases c.step_cases e job event with ⟨-, hstage, hcalls, hkept, struck, hstruck⟩ | ⟨rfl, -⟩ |
      ⟨-, -, hbrings, hsame | ⟨-, hstage, hnext⟩ | ⟨-, hstage, hnext⟩ | ⟨ended, -, hstage, hnext⟩⟩
    · rw [hstage, hcalls, hkept, hstruck]
      exact hfits.strike struck
    · exact h.fits_goOn e
    all_goals rw [hbrings, Task.State.orElse_pending]
    · rwa [hsame]
    all_goals
      rw [hstage] at hfits
      rw [hnext]
    · exact hfits
    · obtain ⟨rfl | rfl, hcalls, hkept⟩ := hfits <;> simp [JobStage.Fits, goTo, hcalls, hkept]
    · obtain ⟨hwaits, hcalls, hkept⟩ := hfits
      rcases ended with (fault | message) | _
      · simp [JobStage.Fits, JobStage.ofEnd, goTo, hwaits, hcalls]
      · rcases hwaits with rfl | rfl <;> simp [JobStage.Fits, JobStage.ofEnd, goTo, hcalls, hkept]
      · exact ⟨hwaits, hcalls, hkept⟩

/-- The engine is called once at most, a result is kept after a call only, and the task of a job is not
completed before its result is kept. -/
theorem Sound.counts (h : c.Sound job state) :
    c.calls ≤ 1 ∧ (c.kept ≠ none → c.calls = 1) ∧ (state = .completed → c.kept ≠ none) := by
  have hfits := h.fits
  cases hstage : c.stage <;> rw [hstage] at hfits
  case held | begun | asking | withdrawing =>
    obtain ⟨rfl | rfl, hcalls, hkept⟩ := hfits <;> simp [hcalls, hkept]
  case working | returned | copying | copyingEngines copy | copyingDeclared copy | keeping copy =>
    obtain ⟨rfl | rfl, hcalls, -⟩ := hfits <;> simp [hcalls]
  case settling result => obtain ⟨rfl | rfl, hcalls, -⟩ := hfits <;> simp [hcalls]
  case gone => exact ⟨hfits.1, hfits.2.1, hfits.2.2.1⟩
  all_goals exact hfits

/-- As long as a job has not come to settle its task, that waits or was cancelled. -/
theorem Sound.waits (h : c.Sound job state) (hopen : c.stage.isOpen = true) :
    state = .pending ∨ state = .cancelled := by
  have hfits := h.fits
  cases hstage : c.stage <;> rw [hstage] at hfits hopen <;>
    first | exact hfits.1 | cases hopen

end Course

end EvidenceFlow
