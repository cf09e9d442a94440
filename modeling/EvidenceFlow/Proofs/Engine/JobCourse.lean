import EvidenceFlow.Proofs.Engine.JobSteps

/-!
# The course of a job

Whatever others do between the steps of a job, its task is settled once the job has come to its end, by
the first step that brought it a state. That was to cancel it, or else the job brought the result of the
engine, or the reason why there is none. Who stops the flow, or cancels the task, before the job looks for
that keeps it from calling the engine; who does so later may come too late, and may come after the result
has been handed to the store.
-/

namespace EvidenceFlow

variable {υ : Type}

/-- Nobody but the job brings the result of its task's work. -/
def Job.Spared (job : Job) (events : List (JobEvent υ)) : Prop :=
  ∀ event ∈ events, event.settles job.task = false

/-- The steps of the job among events. -/
def JobEvent.ownSteps (events : List (JobEvent υ)) : Nat := events.countP JobEvent.isOwn

namespace Course

variable {e : EngineElement υ} {job : Job} {c : Course υ} {state : Task.State}

/-! ## Runs -/

/-- Nothing has happened yet. -/
theorem after_nil (c : Course υ) : c.after e job [] = c := rfl

/-- What happens in two parts happens one part after the other. -/
theorem after_append (c : Course υ) (events later : List (JobEvent υ)) :
    c.after e job (events ++ later) = (c.after e job events).after e job later :=
  List.foldl_append

/-- What happens first is a step, and the rest follows on it. -/
theorem after_cons (c : Course υ) (event : JobEvent υ) (later : List (JobEvent υ)) :
    c.after e job (event :: later) = (c.step e job event).after e job later := rfl

/-- A course is sound whatever happens, and so is all that each event keeps. -/
theorem Sound.induct {P : Course υ → Prop} {events : List (JobEvent υ)}
    (hkeeps : ∀ (c : Course υ) (state : Task.State), ∀ event ∈ events, c.Sound job state →
      event.settles job.task = false → P c → P (c.step e job event))
    (h : c.Sound job state) (hspared : job.Spared events) (hstart : P c) :
    (∃ state, (c.after e job events).Sound job state) ∧ P (c.after e job events) := by
  induction events generalizing c state with
  | nil => exact ⟨⟨state, h⟩, hstart⟩
  | cons event rest ih =>
    obtain ⟨hevent, hrest⟩ := List.forall_mem_cons.mp hspared
    refine ih (fun c state other hother => hkeeps c state other (List.mem_cons_of_mem _ hother))
      (h.step e hevent) hrest ?_
    exact hkeeps c state event List.mem_cons_self h hevent hstart

/-- A course is sound whatever happens. -/
theorem Sound.after (h : c.Sound job state) (e : EngineElement υ) {events : List (JobEvent υ)}
    (hspared : job.Spared events) : ∃ state, (c.after e job events).Sound job state :=
  (h.induct (P := fun _ => True) (fun _ _ _ _ _ _ _ => trivial) hspared trivial).1

/-- An event among others is the first one or comes later. -/
theorem exists_split_cons {event : JobEvent υ} {rest : List (JobEvent υ)}
    {P : List (JobEvent υ) → JobEvent υ → Prop} :
    (∃ before next later, event :: rest = before ++ next :: later ∧ P before next) ↔
      P [] event ∨ ∃ before next later, rest = before ++ next :: later ∧ P (event :: before) next := by
  constructor
  · rintro ⟨before, next, later, hsplit, hnext⟩
    rcases List.cons_eq_append_iff.mp hsplit with ⟨rfl, hfirst⟩ | ⟨others, rfl, hothers⟩
    · obtain ⟨rfl, -⟩ := List.cons.inj hfirst
      exact .inl hnext
    · exact .inr ⟨others, next, later, hothers, hnext⟩
  · rintro (hfirst | ⟨before, next, later, rfl, hnext⟩)
    · exact ⟨[], event, rest, rfl, hfirst⟩
    · exact ⟨event :: before, next, later, rfl, hnext⟩

/-- A task is in a state after an event if it was before, or if the event brought it that while it waited. -/
theorem Sound.state?_step_iff (h : c.Sound job state) {event : JobEvent υ}
    (hspares : event.settles job.task = false) {next : Task.State} (hdone : next ≠ .pending) :
    (c.step e job event).state? job = some next ↔
      c.state? job = some next ∨ c.state? job = some .pending ∧ c.brings e job event = next := by
  rw [state?_step h.state? hspares, h.state?]
  cases state <;> simp [Task.State.orElse, hdone.symm]

/-- A task that waits is settled by the first event that brings it a state. -/
theorem Sound.decided (h : c.Sound job state) (e : EngineElement υ) {events : List (JobEvent υ)}
    (hspared : job.Spared events) {next : Task.State} (hdone : next ≠ .pending) :
    (c.after e job events).state? job = some next ↔
      c.state? job = some next ∨
        ∃ before event later, events = before ++ event :: later ∧
          (c.after e job before).state? job = some .pending ∧
          (c.after e job before).brings e job event = next := by
  -- along the events: the first one brings the task a state, or leaves it to those that come then
  induction events generalizing c state with
  | nil => simp [after_nil]
  | cons event rest ih =>
    obtain ⟨hevent, hrest⟩ := List.forall_mem_cons.mp hspared
    rw [after_cons, ih (h.step e hevent) hrest, h.state?_step_iff hevent hdone, or_assoc, exists_split_cons]
    rfl

end Course

/-! ## What a job brings its task -/

/-- Whether a job at the stage is going to bring its task the result, unless that is cancelled. -/
def JobStage.Tells (engine : String) (result : Except Fault Unit) : JobStage → Prop
  | returned | copying | copyingEngines _ | copyingDeclared _ | keeping _ => result = .ok ()
  | settling outcome => outcome = result
  | leaving reason | abandoning reason | failing reason => result = .error (.element engine reason)
  | cancelling => True
  | held | begun | asking | withdrawing | working | gone => False

namespace Course

variable {e : EngineElement υ} {job : Job} {c : Course υ} {state : Task.State}

/-- The job is going to bring its task the result, or the task is settled by that or cancelled. -/
def Tells (e : EngineElement υ) (job : Job) (result : Except Fault Unit) (c : Course υ) : Prop :=
  c.state? job = some .pending ∧ c.stage.Tells e.engine.name result ∨
    c.state? job = some .cancelled ∨ c.state? job = some (.ofResult result)

/-- A job that is going to bring its task a result does so by its steps, or finds the task cancelled. -/
theorem Sound.tells_goOn (h : c.Sound job .pending) {result : Except Fault Unit}
    (htells : c.stage.Tells e.engine.name result) : (c.goOn e job).Tells e job result := by
  have hspares : (JobEvent.own : JobEvent υ).settles job.task = false := rfl
  have hnext : (c.goOn e job).state? job = some (c.brings e job .own) := (h.step e hspares).state?
  have hwaits : c.scene.shared.tasks.isCancelled job.task = false := by
    rw [← Bool.not_eq_true, Tasks.isCancelled_iff h.state?]
    nofun
  have hundone : c.scene.shared.tasks.isDone job.task = false := by
    rw [← Bool.not_eq_true, Tasks.isDone_iff h.state?]
    exact not_not_intro rfl
  rw [brings] at hnext
  rw [Tells]
  cases hstage : c.stage <;> simp only [hstage, JobStage.Tells] at htells hnext
  case returned | leaving reason =>
    refine .inl ⟨hnext, ?_⟩
    simpa [goOn, hstage, hwaits, hundone, goTo, JobStage.Tells] using htells
  case copying | copyingEngines copy | copyingDeclared copy =>
    refine .inl ⟨hnext, ?_⟩
    cases hobject : c.scene.flow.object? job.object <;>
      simp [goOn, hstage, copyPart, hobject, goTo, JobStage.Tells, htells]
  case keeping copy =>
    refine .inl ⟨hnext, ?_⟩
    simp [goOn, hstage, JobStage.Tells, htells]
  case abandoning reason =>
    refine .inl ⟨hnext, ?_⟩
    simp only [goOn, hstage, goTo]
    split
    · trivial
    · exact htells
  case settling outcome =>
    rw [htells] at hnext
    exact .inr (.inr hnext)
  case cancelling => exact .inr (.inl hnext)
  case failing reason =>
    rw [htells]
    exact .inr (.inr hnext)

/-- What others do leaves it to the job to bring its task the result, or cancels the task. -/
theorem Sound.tells_step (h : c.Sound job state) {event : JobEvent υ}
    (hspares : event.settles job.task = false) {result : Except Fault Unit}
    (htells : c.Tells e job result) : (c.step e job event).Tells e job result := by
  rcases htells with ⟨hpending, htells⟩ | hcancelled | hresult
  · obtain rfl := Option.some.inj (h.state?.symm.trans hpending)
    rcases c.step_cases e job event with ⟨-, hstage, -, -, struck, hstruck⟩ | ⟨rfl, -⟩ |
      ⟨-, -, -, hsame | ⟨-, hstage, -⟩ | ⟨-, hstage, -⟩ | ⟨ended, -, hstage, -⟩⟩
    · have hnext := state?_step (e := e) hpending hspares
      rw [hstruck] at hnext
      rw [Tells, hstage]
      cases struck with
      | false => exact .inl ⟨hnext, htells⟩
      | true => exact .inr (.inl hnext)
    · exact h.tells_goOn htells
    · rw [hsame]
      exact .inl ⟨hpending, htells⟩
    all_goals
      rw [hstage] at htells
      exact htells.elim
  · exact .inr (.inl (state?_step_of_ne_pending hcancelled nofun hspares))
  · exact .inr (.inr (state?_step_of_ne_pending hresult (Task.State.ofResult_ne_pending result) hspares))

/-! ## Jobs that do not call the engine -/

/-- A job that has not called the engine is about to look around or to withdraw, or its task is
cancelled. -/
def Uncalled (job : Job) (c : Course υ) : Prop :=
  c.calls = 0 → (c.stage = .begun ∨ c.stage = .asking ∨ c.stage = .withdrawing) ∨
    c.state? job = some .cancelled

/-- A job that was run and has not called the engine withdraws. -/
theorem Sound.uncalled_step (h : c.Sound job state) {event : JobEvent υ}
    (hspares : event.settles job.task = false) (huncalled : c.Uncalled job) :
    (c.step e job event).Uncalled job := by
  have hfixed (hstate : c.state? job = some .cancelled) :
      (c.step e job event).state? job = some .cancelled := state?_step_of_ne_pending hstate nofun hspares
  rcases c.step_cases e job event with ⟨-, hstage, hcalls, -, -⟩ | ⟨rfl, hown⟩ |
    ⟨-, -, -, hsame | ⟨-, hstage, hnext⟩ | ⟨-, hstage, hnext⟩ | ⟨ended, -, hstage, hnext⟩⟩
  · rw [Uncalled, hstage, hcalls]
    exact fun hnone => (huncalled hnone).imp_right hfixed
  · intro hnone
    rw [hown] at hnone hfixed ⊢
    have hbefore : c.calls = 0 := Nat.le_zero.mp (hnone ▸ c.calls_le_goOn e job)
    rcases huncalled hbefore with hstage | hcancelled
    · rcases hstage with hstage | hstage | hstage
      · left
        simp only [goOn, hstage, goTo]
        split
        · exact .inr (.inr rfl)
        · exact .inr (.inl rfl)
      · left
        simp only [goOn, hstage, goTo] at hnone ⊢
        split at hnone
        · next hstruck => simp [hstruck]
        · cases hnone
      · right
        have hnext := state?_step (e := e) h.state? hspares
        rw [brings, hstage, hown] at hnext
        have hfits := h.fits
        rw [hstage] at hfits
        obtain ⟨rfl | rfl, -⟩ := hfits <;> exact hnext
    · exact .inr (hfixed hcancelled)
  · rwa [hsame]
  all_goals
    rw [hnext]
    exact fun hnone => .inr ((huncalled hnone).resolve_left (by simp [hstage]))

end Course

/-- What keeps a job at the stage from calling the engine: that the flow has been stopped, or that the task
was cancelled, if the job is still going to look for it. -/
def JobStage.Heeds (stopped cancelled : Prop) : JobStage → Prop
  | held | begun | leaving _ | abandoning _ => stopped ∨ cancelled
  | asking | failing _ | gone => cancelled
  | withdrawing | cancelling => True
  | working | returned | copying | copyingEngines _ | copyingDeclared _ | keeping _ | settling _ => False

/-- What keeps a job from calling the engine does so if there is more of it. -/
theorem JobStage.Heeds.imp {stopped stopped' cancelled cancelled' : Prop} {stage : JobStage}
    (h : stage.Heeds stopped cancelled) (hstopped : stopped → stopped')
    (hcancelled : cancelled → cancelled') : stage.Heeds stopped' cancelled' := by
  cases stage with
  | held | begun | leaving reason | abandoning reason => exact Or.imp hstopped hcancelled h
  | asking | failing reason | gone => exact hcancelled h
  | withdrawing | cancelling => trivial
  | working | returned | copying | copyingEngines copy | copyingDeclared copy | keeping copy
    | settling result => exact h.elim

namespace Course

variable {e : EngineElement υ} {job : Job} {c : Course υ} {state : Task.State}

/-- The job has not called the engine and is kept from it: its task will be cancelled. -/
structure Warned (job : Job) (c : Course υ) : Prop where
  /-- The engine has not been called. -/
  calls : c.calls = 0
  /-- The task waits or is cancelled. -/
  state? : c.state? job = some .pending ∨ c.state? job = some .cancelled
  /-- The job is going to find the flow stopped or the task cancelled. -/
  heeds : c.stage.Heeds (c.scene.flow.stopped = true) (c.state? job = some .cancelled)

/-- A job that is kept from calling the engine goes on without it. -/
theorem Warned.goOn (h : c.Warned job) (e : EngineElement υ) : (c.goOn e job).Warned job := by
  obtain ⟨hcalls, hstate, hheeds⟩ := h
  have hown : (JobEvent.own : JobEvent υ).settles job.task = false := rfl
  have hgoTo {stage : JobStage}
      (hnext : stage.Heeds (c.scene.flow.stopped = true) (c.state? job = some .cancelled)) :
      (c.goTo stage).Warned job := ⟨hcalls, hstate, hnext⟩
  have hcancelled (hstruck : c.state? job = some .cancelled) :
      (c.goOn e job).state? job = some .cancelled := state?_step_of_ne_pending hstruck nofun hown
  have hcancels (hbrings : c.brings e job .own = .cancelled) :
      (c.goOn e job).state? job = some .cancelled := by
    rcases hstate with hwaits | hstruck
    · exact (state?_step hwaits hown).trans (congrArg some hbrings)
    · exact hcancelled hstruck
  cases hstage : c.stage <;> rw [hstage] at hheeds
  case begun =>
    rw [Course.goOn, hstage]
    dsimp only
    split
    · exact hgoTo trivial
    · next hrunning => exact hgoTo (hheeds.resolve_left hrunning)
  case asking =>
    have hstruck := (Tasks.isCancelled_iff hheeds).mpr rfl
    simp only [Course.goOn, hstage, hstruck, if_true]
    exact hgoTo trivial
  case withdrawing =>
    have hnext := hcancels (by rw [brings, hstage])
    simp only [Course.goOn, hstage] at hnext ⊢
    exact ⟨hcalls, .inr hnext, .inr hnext⟩
  case leaving reason =>
    rw [Course.goOn, hstage]
    dsimp only
    split
    · next hdone =>
      rcases hstate with hwaits | hstruck
      · exact absurd rfl ((Tasks.isDone_iff hwaits).mp hdone)
      · exact hgoTo hstruck
    · exact hgoTo hheeds
  case abandoning reason =>
    rw [Course.goOn, hstage]
    dsimp only
    split
    · exact hgoTo trivial
    · next hrunning => exact hgoTo (hheeds.resolve_left hrunning)
  case cancelling =>
    have hnext := hcancels (by rw [brings, hstage])
    simp only [Course.goOn, hstage] at hnext ⊢
    exact ⟨hcalls, .inr hnext, hnext⟩
  case failing reason =>
    have hnext := hcancelled hheeds
    simp only [Course.goOn, hstage] at hnext ⊢
    exact ⟨hcalls, .inr hnext, hnext⟩
  case held | gone =>
    simp only [Course.goOn, hstage]
    exact ⟨hcalls, hstate, hstage ▸ hheeds⟩
  all_goals exact hheeds.elim

/-- A job that is kept from calling the engine is so whatever happens. -/
theorem Warned.step (h : c.Warned job) (e : EngineElement υ) {event : JobEvent υ}
    (hspares : event.settles job.task = false) : (c.step e job event).Warned job := by
  rcases c.step_cases e job event with ⟨-, hstage, hcalls, -, struck, hstruck⟩ | ⟨rfl, hown⟩ |
    ⟨-, -, -, hsame | ⟨-, hstage, hnext⟩ | ⟨-, hstage, hnext⟩ | ⟨ended, -, hstage, hnext⟩⟩
  · refine ⟨hcalls.trans h.calls, waits_step h.state? hspares hstruck, ?_⟩
    rw [hstage]
    exact h.heeds.imp (fun hstopped => stopped_step hstopped event)
      fun hcancelled => state?_step_of_ne_pending hcancelled nofun hspares
  · exact h.goOn e
  · rwa [hsame]
  all_goals
    rw [hnext]
    have hheeds := h.heeds
    rw [hstage] at hheeds
  · exact ⟨h.calls, h.state?, hheeds⟩
  · exact ⟨h.calls, h.state?, hheeds⟩
  · exact hheeds.elim

/-! ## Tasks that nobody cancels -/

/-- Nobody has stopped the flow or cancelled the task of the job, nor is the job about to do so. -/
structure Calm (job : Job) (c : Course υ) : Prop where
  /-- The flow has not been stopped. -/
  stopped : c.scene.flow.stopped = false
  /-- The task is not cancelled. -/
  state? : c.state? job ≠ some .cancelled
  /-- The job is not about to withdraw. -/
  withdrawing : c.stage ≠ .withdrawing
  /-- Its guard is not about to cancel the task. -/
  cancelling : c.stage ≠ .cancelling

/-- Nothing is brought to a task that nobody cancels but the result of its work. -/
theorem Sound.brings_of_calm (h : c.Sound job state) (hcalm : c.Calm job) (e : EngineElement υ)
    {event : JobEvent υ} (hstrike : event ≠ .strike job.task) : c.brings e job event ≠ .cancelled := by
  have hidle : c.pending = [] := h.guarded.idle hcalm.stopped
  cases event with
  | holder event =>
    cases event with
    | cancel holder => simp [brings, Stopping.brings, stopping, hidle]
    | _ => rintro ⟨⟩
  | strike task =>
    have hother : (task == job.task) = false := beq_false_of_ne fun heq => hstrike (heq ▸ rfl)
    simp [brings, hother, Task.State.struck]
  | own =>
    rw [brings]
    cases hstage : c.stage with
    | withdrawing => exact absurd hstage hcalm.withdrawing
    | cancelling => exact absurd hstage hcalm.cancelling
    | settling result => cases result <;> rintro ⟨⟩
    | _ => rintro ⟨⟩
  | elsewhere next | run | drop | returns ended => rintro ⟨⟩

/-- A flow that has not been stopped is not stopped but by who begins to. -/
theorem stopped_step_of_ne_raise (hstopped : c.scene.flow.stopped = false) {event : JobEvent υ}
    (hraise : event ≠ .holder .raise) : (c.step e job event).scene.flow.stopped = false := by
  cases event with
  | holder event =>
    rw [step]
    cases hstep : c.stopping.step? event with
    | none => exact hstopped
    | some s =>
      refine Bool.eq_false_iff.mpr fun htrue => ?_
      rcases (Stopping.marks_step hstep).1.mp htrue with hbefore | rfl
      · exact absurd (hstopped.symm.trans hbefore) Bool.false_ne_true
      · exact hraise rfl
  | own =>
    rw [step, flow_goOn]
    exact hstopped
  | strike task | elsewhere next => exact hstopped
  | run | drop | returns ended =>
    rw [step]
    split <;> exact hstopped

/-- A job goes on to call the engine and to settle its task if nobody keeps it from that. -/
theorem Sound.stage_of_calm (h : c.Sound job state) (hcalm : c.Calm job) (e : EngineElement υ)
    (event : JobEvent υ) :
    (c.step e job event).stage ≠ .withdrawing ∧ (c.step e job event).stage ≠ .cancelling := by
  have hrunning : ¬c.scene.flow.stopped = true := by simp [hcalm.stopped]
  have huncancelled : ¬c.scene.shared.tasks.isCancelled job.task = true := by
    rw [Tasks.isCancelled_iff h.state?]
    rintro rfl
    exact hcalm.state? h.state?
  rcases c.step_cases e job event with ⟨-, hstage, -⟩ | ⟨rfl, hown⟩ |
    ⟨-, -, -, hsame | ⟨-, -, hnext⟩ | ⟨-, -, hnext⟩ | ⟨ended, -, -, hnext⟩⟩
  · rw [hstage]
    exact ⟨hcalm.withdrawing, hcalm.cancelling⟩
  · rw [hown, goOn]
    cases hstage : c.stage with
    | begun | abandoning reason =>
      simp only [if_neg hrunning]
      constructor <;> rintro ⟨⟩
    | asking =>
      simp only [if_neg huncancelled]
      constructor <;> rintro ⟨⟩
    | returned =>
      simp only [if_neg huncancelled]
      constructor <;> rintro ⟨⟩
    | copying | copyingEngines copy | copyingDeclared copy =>
      simp only [copyPart]
      cases c.scene.flow.object? job.object <;> constructor <;> rintro ⟨⟩
    | leaving reason =>
      dsimp only [goTo]
      split <;> constructor <;> rintro ⟨⟩
    | withdrawing => exact absurd hstage hcalm.withdrawing
    | cancelling => exact absurd hstage hcalm.cancelling
    | held | working | gone => simp only [hstage]; constructor <;> rintro ⟨⟩
    | keeping copy | settling result | failing reason => constructor <;> rintro ⟨⟩
  · rw [hsame]
    exact ⟨hcalm.withdrawing, hcalm.cancelling⟩
  · rw [hnext]
    constructor <;> rintro ⟨⟩
  · rw [hnext]
    constructor <;> rintro ⟨⟩
  · rw [hnext]
    rcases ended with (fault | message) | _ <;> constructor <;> rintro ⟨⟩

/-- Nothing cancels a task but that the flow is stopped or that somebody cancels it. -/
theorem Sound.calm_step (h : c.Sound job state) {event : JobEvent υ}
    (hspares : event.settles job.task = false) (hraise : event ≠ .holder .raise)
    (hstrike : event ≠ .strike job.task) (hcalm : c.Calm job) : (c.step e job event).Calm job where
  stopped := stopped_step_of_ne_raise hcalm.stopped hraise
  state? hcancelled := by
    have hnext := Option.some.inj ((state?_step h.state? hspares).symm.trans hcancelled)
    cases state with
    | pending => exact h.brings_of_calm hcalm e hstrike hnext
    | cancelled => exact hcalm.state? h.state?
    | completed | failed cause => cases hnext
  withdrawing := (h.stage_of_calm hcalm e event).1
  cancelling := (h.stage_of_calm hcalm e event).2

end Course

/-! ## Results that are kept -/

/-- Whether the job copies its result object or is about to hand over the copy. -/
def JobStage.isCopying : JobStage → Bool
  | copying | copyingEngines _ | copyingDeclared _ | keeping _ => true
  | _ => false

namespace Course

variable {e : EngineElement υ} {job : Job} {c : Course υ} {state : Task.State}

/-- The job hands its result to the store, or has done so. -/
def Hands (c : Course υ) : Prop := c.stage.isCopying = true ∨ c.kept ≠ none

/-- A job that hands its result to the store does so whatever happens. -/
theorem Sound.hands_step (h : c.Sound job state) (hhands : c.Hands) (e : EngineElement υ)
    (event : JobEvent υ) : (c.step e job event).Hands := by
  obtain ⟨left, hobject⟩ : ∃ left, c.scene.flow.object? job.object = some left :=
    ⟨_, List.getElem?_eq_getElem h.object⟩
  rw [Hands] at hhands
  rcases c.step_cases e job event with ⟨-, hstage, -, hkept, -⟩ | ⟨rfl, hown⟩ |
    ⟨-, -, -, hsame | ⟨-, hstage, hnext⟩ | ⟨-, hstage, hnext⟩ | ⟨ended, -, hstage, hnext⟩⟩
  · rwa [Hands, hstage, hkept]
  · rw [hown, Hands, goOn]
    cases hstage : c.stage <;> simp only [hstage] at hhands ⊢
    case copying | copyingEngines copy | copyingDeclared copy =>
      rw [copyPart, hobject]
      exact .inl rfl
    case keeping copy => exact .inr (Option.some_ne_none copy)
    case asking =>
      split <;> exact .inr (hhands.resolve_left Bool.false_ne_true)
    all_goals exact .inr (hhands.resolve_left Bool.false_ne_true)
  · rwa [hsame]
  all_goals
    rw [hnext]
    exact .inr (hhands.resolve_left (by rw [hstage]; exact Bool.false_ne_true))

/-- A job sets out to hand its result to the store when it finds, after the engine has succeeded, that its
task was not cancelled. -/
theorem Sound.hands_step_iff (h : c.Sound job state) (hnot : ¬c.Hands) (e : EngineElement υ)
    (event : JobEvent υ) :
    (c.step e job event).Hands ↔
      event = .own ∧ c.stage = .returned ∧ c.state? job ≠ some .cancelled := by
  have hnone : c.kept = none := Classical.byContradiction fun hkept => hnot (.inr hkept)
  have hcopying : ¬c.stage.isCopying = true := fun hstage => hnot (.inl hstage)
  have hstruck := Tasks.isCancelled_iff h.state?
  rw [h.state?]
  rcases c.step_cases e job event with ⟨hother, hstage, -, hkept, -⟩ | ⟨rfl, hown⟩ |
    ⟨-, hown, -, hsame | ⟨-, -, hnext⟩ | ⟨-, -, hnext⟩ | ⟨ended, -, -, hnext⟩⟩
  · rw [Hands, hstage, hkept]
    refine iff_of_false hnot ?_
    rintro ⟨rfl, -⟩
    cases hother
  · rw [hown, Hands, goOn]
    cases hstage : c.stage <;> rw [hstage] at hcopying
    case returned =>
      dsimp only [goTo]
      split
      · next hcancelled => simp [JobStage.isCopying, hnone, hstruck.mp hcancelled]
      · next hwaits =>
        have hne : state ≠ .cancelled := fun heq => hwaits (hstruck.mpr heq)
        simp [JobStage.isCopying, hne]
    case begun | leaving reason | abandoning reason =>
      dsimp only [goTo]
      split <;> simp [JobStage.isCopying, hnone]
    case asking =>
      dsimp only [goTo]
      split <;> simp [JobStage.isCopying, hnone]
    case copying | copyingEngines copy | copyingDeclared copy | keeping copy =>
      exact absurd rfl hcopying
    case withdrawing | settling result | cancelling | failing reason =>
      simp [JobStage.isCopying, hnone, goTo, act]
    case held | working | gone => simp [JobStage.isCopying, hnone, hstage]
  all_goals
    have hne : event ≠ .own := fun heq => by simp [heq, JobEvent.isOwn] at hown
  · rw [hsame]
    exact iff_of_false hnot fun hright => hne hright.1
  · rw [hnext]
    exact iff_of_false (by simp [Hands, goTo, JobStage.isCopying, hnone]) fun hright => hne hright.1
  · rw [hnext]
    exact iff_of_false (by simp [Hands, goTo, JobStage.isCopying, hnone]) fun hright => hne hright.1
  · rw [hnext]
    refine iff_of_false ?_ fun hright => hne hright.1
    rcases ended with (fault | message) | _ <;>
      simp [Hands, goTo, JobStage.ofEnd, JobStage.isCopying, hnone]

/-- A job hands its result to the store exactly if it finds at some time, after the engine has succeeded,
that its task was not cancelled. -/
theorem Sound.hands_iff (h : c.Sound job state) (hnot : ¬c.Hands) (e : EngineElement υ)
    {events : List (JobEvent υ)} (hspared : job.Spared events) :
    (c.after e job events).Hands ↔
      ∃ before event later, events = before ++ event :: later ∧ event = .own ∧
        (c.after e job before).stage = .returned ∧ (c.after e job before).state? job ≠ some .cancelled := by
  induction events generalizing c state with
  | nil => exact iff_of_false hnot (by simp)
  | cons event rest ih =>
    obtain ⟨hevent, hrest⟩ := List.forall_mem_cons.mp hspared
    have hnext := h.step e hevent
    rw [after_cons, exists_split_cons, after_nil, ← h.hands_step_iff hnot e event]
    by_cases hhands : (c.step e job event).Hands
    · refine iff_of_true ?_ (.inl hhands)
      exact (hnext.induct (P := Hands) (fun c state other _ hsound _ hc => hsound.hands_step hc e other)
        hrest hhands).2
    · rw [ih hnext hhands hrest, or_iff_right hhands]
      rfl

end Course

/-! ## Jobs that come to their end -/

namespace JobStage

/-- The job, which has called the engine or will not call it, is on its way to its end. -/
def isLate : JobStage → Bool
  | held | begun | asking | working => false
  | _ => true

/-- How many steps a job has to take at most until it waits for the engine or comes to its end. -/
def left : JobStage → Nat
  | held | working | gone => 0
  | cancelling | failing _ => 1
  | abandoning _ => 2
  | leaving _ => 3
  | withdrawing | settling _ => 4
  | keeping _ | asking => 5
  | copyingDeclared _ | begun => 6
  | copyingEngines _ => 7
  | copying => 8
  | returned => 9

end JobStage

namespace Course

variable {e : EngineElement υ} {job : Job} {c : Course υ} {state : Task.State}

/-- A step of the job brings it nearer to its end, or to where it waits for the engine. -/
theorem left_goOn (c : Course υ) (e : EngineElement υ) (job : Job) :
    (c.goOn e job).stage.left ≤ c.stage.left - 1 ∧
      (c.stage.isLate = true → (c.goOn e job).stage.isLate = true) ∧
      (c.stage ≠ .held → (c.goOn e job).stage ≠ .held) := by
  rw [goOn]
  cases hstage : c.stage with
  | copying | copyingEngines copy | copyingDeclared copy =>
    simp only [copyPart]
    cases c.scene.flow.object? job.object <;> simp [goTo, JobStage.left, JobStage.isLate]
  | begun | asking | returned | leaving reason | abandoning reason =>
    dsimp only [goTo]
    split <;> simp [JobStage.left, JobStage.isLate]
  | held | working | gone => simp [hstage, JobStage.left, JobStage.isLate]
  | _ => simp [goTo, act, JobStage.left, JobStage.isLate]

/-- A job that is on its way to its end does not call the engine any more. -/
theorem late_step (hlate : c.stage.isLate = true) (e : EngineElement υ) (job : Job) (event : JobEvent υ) :
    (c.step e job event).stage.isLate = true ∧ (c.step e job event).calls = c.calls := by
  rcases c.step_cases e job event with ⟨-, hstage, hcalls, -⟩ | ⟨rfl, hown⟩ |
    ⟨-, -, -, hsame | ⟨-, hstage, -⟩ | ⟨-, hstage, -⟩ | ⟨ended, -, hstage, -⟩⟩
  · rw [hstage]
    exact ⟨hlate, hcalls⟩
  · rw [hown]
    refine ⟨(c.left_goOn e job).2.1 hlate, ?_⟩
    rw [goOn]
    cases hstage : c.stage <;> first | rfl | (rw [hstage] at hlate; cases hlate)
  · rw [hsame]
    exact ⟨hlate, rfl⟩
  all_goals
    rw [hstage] at hlate
    cases hlate

/-- Nothing but its own steps and the return of the engine is needed for a job that has begun to come to its
end. -/
theorem ends_of_left {events : List (JobEvent υ)} (hbegun : c.stage ≠ .held)
    (hsteady : c.stage.isLate = true ∨ ∀ ended, .returns ended ∉ events)
    (hleft : c.stage.left ≤ JobEvent.ownSteps events) :
    (c.after e job events).stage = .gone ∨
      c.stage.isLate = false ∧ (c.after e job events).stage = .working := by
  induction events generalizing c with
  | nil =>
    have hnone : c.stage.left = 0 := Nat.le_zero.mp hleft
    rw [after, List.foldl_nil]
    cases hstage : c.stage with
    | held => exact absurd hstage hbegun
    | working => exact .inr ⟨rfl, rfl⟩
    | gone => exact .inl rfl
    | _ => simp [hstage, JobStage.left] at hnone
  | cons event rest ih =>
    have hrest : c.stage.isLate = true ∨ ∀ ended, .returns ended ∉ rest :=
      hsteady.imp_right fun hnone ended hmem => hnone ended (List.mem_cons_of_mem _ hmem)
    rw [JobEvent.ownSteps, List.countP_cons] at hleft
    rw [after_cons]
    rcases c.step_cases e job event with ⟨hother, hstage, -⟩ | ⟨rfl, hown⟩ |
      ⟨-, hown, -, hsame | ⟨-, hstage, -⟩ | ⟨-, hstage, -⟩ | ⟨ended, rfl, hstage, -⟩⟩
    · have hown : event.isOwn = false := by cases event <;> first | rfl | cases hother
      rw [hown, if_neg Bool.false_ne_true] at hleft
      have hlast := ih (c := c.step e job event) (by rwa [hstage]) (by rwa [hstage]) (by rwa [hstage])
      rwa [hstage] at hlast
    · obtain ⟨hless, hlate, hheld⟩ := c.left_goOn e job
      rw [JobEvent.isOwn, if_pos rfl] at hleft
      rw [hown]
      refine (ih (hheld hbegun) (hrest.imp_left hlate) ?_).imp_right fun hworks => ⟨?_, hworks.2⟩
      · rw [JobEvent.ownSteps]
        omega
      · exact Bool.eq_false_iff.mpr fun htrue => by simp [hlate htrue] at hworks
    · rw [hown, if_neg Bool.false_ne_true] at hleft
      rw [hsame]
      exact ih hbegun hrest hleft
    · exact absurd hstage hbegun
    · exact absurd hstage hbegun
    · rcases hsteady with hlate | hnone
      · rw [hstage] at hlate
        cases hlate
      · exact absurd List.mem_cons_self (hnone ended)

/-- A job that is on its way to its end needs nobody to come there. -/
theorem gone_of_late {events : List (JobEvent υ)} (hlate : c.stage.isLate = true)
    (hleft : c.stage.left ≤ JobEvent.ownSteps events) : (c.after e job events).stage = .gone := by
  have hbegun : c.stage ≠ .held := fun hheld => by
    rw [hheld] at hlate
    cases hlate
  refine (ends_of_left hbegun (.inl hlate) hleft).resolve_right fun hworks => ?_
  rw [hlate] at hworks
  cases hworks.1

/-- A job that is on its way to its end does not call the engine any more, whatever happens. -/
theorem calls_of_late (hlate : c.stage.isLate = true) (e : EngineElement υ) (job : Job)
    (events : List (JobEvent υ)) : (c.after e job events).calls = c.calls := by
  induction events generalizing c with
  | nil => rfl
  | cons event rest ih =>
    obtain ⟨hlater, hcalls⟩ := late_step hlate e job event
    rw [after_cons, ih hlater, hcalls]

end Course

end EvidenceFlow
