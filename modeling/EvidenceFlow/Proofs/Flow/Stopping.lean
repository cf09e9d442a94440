import EvidenceFlow.Flow.Stopping
import EvidenceFlow.Proofs.Engine.TaskEvents

/-!
# No cancellation is lost

While a flow is stopped from several sides, tasks are offered to it and settled. An offered task that is
not settled is at any time in somebody's hands: the flow's, until a stop takes what the flow has, or those
of a holder who is about to cancel it. So once a stop has begun and nobody has anything left to do, every
task that was ever offered is settled. What has settled a task stays, and nothing is cancelled before a
stop begins.
-/

namespace EvidenceFlow

namespace Stopping

variable {s t : Stopping}

/-- A flow that has not been stopped and was offered nothing, among tasks in any state. -/
def start (tasks : Tasks) : Stopping := { tasks }

/-! ## Steps -/

/-- A task that is offered has been made. -/
theorem of_offer {task : TaskId} (hstep : s.step? (.offer task) = some t) :
    (∃ state, s.tasks.stateOf task = some state) ∧ t = s.offer task := by
  rw [step?] at hstep
  split at hstep
  · next hmade =>
    obtain ⟨made, hmade⟩ := Option.isSome_iff_exists.mp hmade
    cases hstep
    exact ⟨⟨made.state, by rw [Tasks.stateOf, hmade, Option.map_some]⟩, rfl⟩
  · cases hstep

/-- Who takes the tasks that wait for the stop is about to do so, and is then about to cancel them. -/
theorem of_take {holder : Nat} (hstep : s.step? (.take holder) = some t) :
    s.pending[holder]? = some .take ∧
      t = { s with flow := { s.flow with hooks := [] }
                   pending := s.pending.set holder (.cancel s.flow.hooks) } := by
  rw [step?] at hstep
  split at hstep
  · next htake =>
    cases hstep
    exact ⟨htake, rfl⟩
  · cases hstep

/-- Who cancels a task is about to do so, and is left with the others. -/
theorem of_cancel {holder : Nat} (hstep : s.step? (.cancel holder) = some t) :
    ∃ task left, s.pending[holder]? = some (.cancel (task :: left)) ∧
      t = { s with tasks := s.tasks.cancel task, pending := s.pending.set holder (.cancel left) } := by
  rw [step?] at hstep
  split at hstep
  · next task left hcancel =>
    cases hstep
    exact ⟨task, left, hcancel, rfl⟩
  · cases hstep

/-- A task that is offered after the stop is left to who offers it. -/
theorem offer_of_stopped (h : s.flow.stopped = true) (task : TaskId) :
    s.offer task =
      { s with offered := s.offered ++ [task], pending := s.pending ++ [.cancel [task]] } := by
  rw [offer]
  dsimp only
  rw [if_pos h]
  rfl

/-- A task that is offered before the stop is left with the flow. -/
theorem offer_of_running (h : s.flow.stopped = false) (task : TaskId) :
    s.offer task =
      { s with
        flow := { s.flow with hooks := s.flow.hooks.filter (fun id => !s.tasks.isDone id) ++ [task] }
        offered := s.offered ++ [task] } := by
  rw [offer]
  dsimp only
  rw [if_neg (by simp [h]), Flow.onStop, if_neg (by simp [h])]

/-- To offer a task leaves the states of tasks alone. -/
theorem tasks_offer (s : Stopping) (task : TaskId) : (s.offer task).tasks = s.tasks := by
  rw [offer]
  split <;> rfl

/-- A settled task stays as it is. -/
theorem stateOf_step {event : StopEvent} (hstep : s.step? event = some t) {task : TaskId}
    {state : Task.State} (hstate : s.tasks.stateOf task = some state) (hdone : state ≠ .pending) :
    t.tasks.stateOf task = some state := by
  have hsettle : ∀ (other : TaskId) (next : Task.State),
      (s.tasks.modify other (·.settle next)).stateOf task = some state := by
    intro other next
    rw [Tasks.stateOf_modify_settle, hstate, Option.map_some,
      Task.State.orElse_of_ne_pending hdone, ite_self]
  cases event with
  | make engine =>
    cases hstep
    exact Tasks.stateOf_add engine hstate
  | complete other result =>
    cases hstep
    exact hsettle other (.ofResult result)
  | offer other =>
    obtain ⟨-, rfl⟩ := of_offer hstep
    rwa [tasks_offer]
  | raise =>
    cases hstep
    exact hstate
  | take holder =>
    obtain ⟨-, rfl⟩ := of_take hstep
    exact hstate
  | cancel holder =>
    obtain ⟨other, left, -, rfl⟩ := of_cancel hstep
    exact hsettle other .cancelled

/-! ## Calls that nobody interrupts -/

/-- Tasks that a holder is about to cancel are cancelled one after the other. -/
theorem run?_cancelAll (s : Stopping) (before : List StopStage) (left : List TaskId)
    (hpending : s.pending = before ++ [.cancel left]) :
    s.run? (left.map fun _ => .cancel before.length) =
      some { s with tasks := s.tasks.cancelAll left, pending := before ++ [.cancel []] } := by
  induction left generalizing s with
  | nil =>
    rw [← hpending]
    rfl
  | cons task left ih =>
    have hcancel : s.step? (.cancel before.length) =
        some { s with tasks := s.tasks.cancel task, pending := before ++ [.cancel left] } := by
      simp [step?, hpending]
    rw [List.map_cons, run?, hcancel, Option.bind_some, ih _ rfl]
    rfl

/-- The steps of one stop, with nothing in between, are those of `Flow.stop`. -/
theorem run?_stop (s : Stopping) :
    s.run? (.raise :: .take s.pending.length :: s.flow.hooks.map fun _ => .cancel s.pending.length) =
      some { s with flow := (s.flow.stop s.tasks).1
                    tasks := (s.flow.stop s.tasks).2
                    pending := s.pending ++ [.cancel []] } := by
  have htake : (({ s with flow := s.flow.raiseStop } : Stopping).leaveTo .take).step?
      (.take s.pending.length) =
        some { s with flow := { s.flow with stopped := true, hooks := [] }
                      pending := s.pending ++ [.cancel s.flow.hooks] } := by
    simp [step?, leaveTo, Flow.raiseStop, Flow.takeHooks]
  rw [run?, step?, Option.bind_some, run?, htake, Option.bind_some, run?_cancelAll _ s.pending _ rfl]
  rfl

/-- An offer, and the cancellation that a stopped flow calls for, do what `Flow.onStop` does. -/
theorem run?_offer (s : Stopping) {task : TaskId} (hmade : (s.tasks.get? task).isSome) :
    s.run? (.offer task :: if s.flow.stopped then [.cancel s.pending.length] else []) =
      some { s with flow := (s.flow.onStop s.tasks task).1
                    tasks := (s.flow.onStop s.tasks task).2
                    offered := s.offered ++ [task]
                    pending := s.pending ++ if s.flow.stopped then [.cancel []] else [] } := by
  rw [run?, step?, if_pos hmade, Option.bind_some]
  cases hstopped : s.flow.stopped with
  | true =>
    rw [offer_of_stopped hstopped, Flow.onStop, if_pos hstopped, if_pos rfl, if_pos rfl]
    exact run?_cancelAll _ s.pending [task] rfl
  | false =>
    have hleft : s.flow.onStop s.tasks task =
        ({ s.flow with hooks := s.flow.hooks.filter (fun id => !s.tasks.isDone id) ++ [task] },
          s.tasks) := by
      rw [Flow.onStop, if_neg (by simp [hstopped])]
    rw [offer_of_running hstopped, hleft]
    simp [run?]

/-! ## In whose hands a task is -/

/-- Somebody is about to cancel the task. -/
def Doomed (s : Stopping) (task : TaskId) : Prop := ∃ left, .cancel left ∈ s.pending ∧ task ∈ left

/-- What others are about to do stays when a holder goes on. -/
theorem mem_set_of_ne {stages : List StopStage} {holder : Nat} {old stage : StopStage}
    (hold : stages[holder]? = some old) (hmem : stage ∈ stages) (hne : stage ≠ old)
    (next : StopStage) : stage ∈ stages.set holder next := by
  obtain ⟨other, hother⟩ := List.getElem?_of_mem hmem
  have hapart : holder ≠ other := by
    rintro rfl
    rw [hold] at hother
    exact hne (Option.some.inj hother).symm
  apply List.mem_of_getElem? (i := other)
  rw [List.getElem?_set_ne hapart, hother]

/-- A holder who goes on has the next thing to do. -/
theorem mem_set_self {stages : List StopStage} {holder : Nat} {old : StopStage}
    (hold : stages[holder]? = some old) (next : StopStage) : next ∈ stages.set holder next :=
  List.mem_set (List.getElem?_eq_some_iff.mp hold).1 next

/-- What can be said at any time of the tasks that were offered to a flow. -/
structure Guarded (s : Stopping) : Prop where
  /-- An offered task is settled, or is with the flow, or is about to be cancelled. -/
  watched : ∀ task ∈ s.offered, ∃ state, s.tasks.stateOf task = some state ∧
    (state = .pending → task ∈ s.flow.hooks ∨ s.Doomed task)
  /-- Until the flow is stopped nobody has anything to do. -/
  idle : s.flow.stopped = false → s.pending = []
  /-- Once it is, somebody is about to take the tasks that are with the flow. -/
  fetched : s.flow.stopped = true → s.flow.hooks = [] ∨ .take ∈ s.pending

namespace Guarded

/-- Before anything is offered every task is guarded. -/
theorem start (tasks : Tasks) : (start tasks).Guarded where
  watched := nofun
  idle _ := rfl
  fetched := nofun

/-- A task may be settled by its work, and others may be made. -/
theorem of_tasks (h : s.Guarded) {tasks : Tasks}
    (htasks : ∀ task state, s.tasks.stateOf task = some state →
      ∃ state', tasks.stateOf task = some state' ∧ (state' = .pending → state = .pending)) :
    ({ s with tasks } : Stopping).Guarded where
  watched task htask := by
    obtain ⟨state, hstate, hsafe⟩ := h.watched task htask
    obtain ⟨state', hstate', hpending⟩ := htasks task state hstate
    exact ⟨state', hstate', fun heq => hsafe (hpending heq)⟩
  idle := h.idle
  fetched := h.fetched

/-- A task that is offered after the stop is about to be cancelled. -/
theorem offer_of_stopped (h : s.Guarded) (hstopped : s.flow.stopped = true) {task : TaskId}
    {made : Task.State} (hmade : s.tasks.stateOf task = some made) : (s.offer task).Guarded := by
  rw [Stopping.offer_of_stopped hstopped]
  refine ⟨?_, fun hfalse => absurd (hstopped.symm.trans hfalse) (by simp), ?_⟩
  · intro other hother
    rcases List.mem_append.mp hother with hbefore | hnow
    · obtain ⟨state, hstate, hsafe⟩ := h.watched other hbefore
      refine ⟨state, hstate, fun heq => (hsafe heq).imp_right ?_⟩
      rintro ⟨left, hleft, hmem⟩
      exact ⟨left, List.mem_append_left _ hleft, hmem⟩
    · obtain rfl := List.mem_singleton.mp hnow
      exact ⟨made, hmade, fun _ => Or.inr ⟨[other], by simp, by simp⟩⟩
  · intro _
    exact (h.fetched hstopped).imp_right (List.mem_append_left _)

/-- A task that is offered before the stop is left with the flow, which forgets settled ones only. -/
theorem offer_of_running (h : s.Guarded) (hrunning : s.flow.stopped = false) {task : TaskId}
    {made : Task.State} (hmade : s.tasks.stateOf task = some made) : (s.offer task).Guarded := by
  have hidle := h.idle hrunning
  rw [Stopping.offer_of_running hrunning]
  refine ⟨?_, fun _ => hidle, fun htrue => absurd (hrunning.symm.trans htrue) (by simp)⟩
  intro other hother
  rcases List.mem_append.mp hother with hbefore | hnow
  · obtain ⟨state, hstate, hsafe⟩ := h.watched other hbefore
    refine ⟨state, hstate, fun heq => Or.inl ?_⟩
    have hwaits : s.tasks.isDone other = false := by
      rw [← Bool.not_eq_true, Tasks.isDone_iff hstate]
      exact not_not_intro heq
    rcases hsafe heq with hhook | ⟨left, hleft, -⟩
    · exact List.mem_append_left _ (by simp [hhook, hwaits])
    · rw [hidle] at hleft
      cases hleft
  · obtain rfl := List.mem_singleton.mp hnow
    exact ⟨made, hmade, fun _ => Or.inl (by simp)⟩

/-- Who raises the flag is about to take the tasks that are with the flow. -/
theorem raise (h : s.Guarded) :
    (({ s with flow := s.flow.raiseStop } : Stopping).leaveTo .take).Guarded where
  watched task htask := by
    obtain ⟨state, hstate, hsafe⟩ := h.watched task htask
    refine ⟨state, hstate, fun heq => (hsafe heq).imp_right ?_⟩
    rintro ⟨left, hleft, hmem⟩
    exact ⟨left, List.mem_append_left _ hleft, hmem⟩
  idle := nofun
  fetched _ := Or.inr (by simp [leaveTo])

/-- Who has something to do has found the flow stopped. -/
theorem stopped (h : s.Guarded) {holder : Nat} {stage : StopStage}
    (hstage : s.pending[holder]? = some stage) : s.flow.stopped = true := by
  rw [← Bool.not_eq_false]
  intro hfalse
  rw [h.idle hfalse] at hstage
  cases hstage

/-- The tasks that were with the flow pass to who takes them. -/
theorem take (h : s.Guarded) {holder : Nat} (htake : s.pending[holder]? = some .take) :
    ({ s with flow := { s.flow with hooks := [] }
              pending := s.pending.set holder (.cancel s.flow.hooks) } : Stopping).Guarded where
  watched task htask := by
    obtain ⟨state, hstate, hsafe⟩ := h.watched task htask
    refine ⟨state, hstate, fun heq => Or.inr ?_⟩
    rcases hsafe heq with hhook | ⟨left, hleft, hmem⟩
    · exact ⟨s.flow.hooks, mem_set_self htake _, hhook⟩
    · exact ⟨left, mem_set_of_ne htake hleft nofun _, hmem⟩
  idle hfalse := absurd ((h.stopped htake).symm.trans hfalse) (by simp)
  fetched _ := Or.inl rfl

/-- A task that is cancelled needs nobody any more. -/
theorem cancel (h : s.Guarded) {holder : Nat} {task : TaskId} {left : List TaskId}
    (hcancel : s.pending[holder]? = some (.cancel (task :: left))) :
    ({ s with tasks := s.tasks.cancel task
              pending := s.pending.set holder (.cancel left) } : Stopping).Guarded where
  watched other hother := by
    obtain ⟨state, hstate, hsafe⟩ := h.watched other hother
    by_cases hsame : other = task
    · subst hsame
      refine ⟨state.orElse .cancelled, ?_, fun heq => ?_⟩
      · rw [Tasks.cancel]
        refine (Tasks.stateOf_modify_settle _ _ _ _).trans ?_
        rw [if_pos rfl, hstate, Option.map_some]
      · cases (Task.State.orElse_eq_pending.mp heq).2
    · refine ⟨state, ?_, fun heq => (hsafe heq).imp_right ?_⟩
      · rw [Tasks.cancel]
        refine (Tasks.stateOf_modify_settle _ _ _ _).trans ?_
        rw [if_neg hsame, hstate]
      · rintro ⟨others, hothers, hmem⟩
        by_cases hturn : others = task :: left
        · rw [hturn] at hmem
          exact ⟨left, mem_set_self hcancel _, List.mem_of_ne_of_mem hsame hmem⟩
        · refine ⟨others, mem_set_of_ne hcancel hothers ?_ _, hmem⟩
          rwa [Ne, StopStage.cancel.injEq]
  idle hfalse := absurd ((h.stopped hcancel).symm.trans hfalse) (by simp)
  fetched hstopped := by
    refine (h.fetched hstopped).imp_right fun htake => ?_
    exact mem_set_of_ne hcancel htake (by simp) _

/-- No event lets an offered task fall out of all hands. -/
theorem step (h : s.Guarded) {event : StopEvent} (hstep : s.step? event = some t) : t.Guarded := by
  cases event with
  | make engine =>
    cases hstep
    exact h.of_tasks fun task state hstate => ⟨state, Tasks.stateOf_add engine hstate, id⟩
  | complete task result =>
    cases hstep
    refine h.of_tasks fun other state hstate => ?_
    by_cases hsame : other = task
    · refine ⟨state.orElse (.ofResult result), ?_, fun heq => (Task.State.orElse_eq_pending.mp heq).1⟩
      refine (Tasks.stateOf_modify_settle _ _ _ _).trans ?_
      rw [if_pos hsame, hstate, Option.map_some]
    · refine ⟨state, ?_, id⟩
      refine (Tasks.stateOf_modify_settle _ _ _ _).trans ?_
      rw [if_neg hsame, hstate]
  | offer task =>
    obtain ⟨⟨made, hmade⟩, rfl⟩ := of_offer hstep
    cases hstopped : s.flow.stopped with
    | true => exact h.offer_of_stopped hstopped hmade
    | false => exact h.offer_of_running hstopped hmade
  | raise =>
    cases hstep
    exact h.raise
  | take holder =>
    obtain ⟨htake, rfl⟩ := of_take hstep
    exact h.take htake
  | cancel holder =>
    obtain ⟨task, left, hcancel, rfl⟩ := of_cancel hstep
    exact h.cancel hcancel

/-- Once the flow is stopped and nobody has anything left to do, all offered tasks are settled. -/
theorem settled_of_isQuiet (h : s.Guarded) (hstopped : s.flow.stopped = true)
    (hquiet : s.isQuiet = true) {task : TaskId} (htask : task ∈ s.offered) :
    ∃ state, s.tasks.stateOf task = some state ∧ state ≠ .pending := by
  have hdone : ∀ stage ∈ s.pending, stage = .cancel [] := fun stage hstage =>
    beq_iff_eq.mp (List.all_eq_true.mp hquiet stage hstage)
  obtain ⟨state, hstate, hsafe⟩ := h.watched task htask
  refine ⟨state, hstate, fun heq => ?_⟩
  rcases hsafe heq with hhook | ⟨left, hleft, hmem⟩
  · rcases h.fetched hstopped with hnone | htake
    · rw [hnone] at hhook
      cases hhook
    · cases hdone _ htake
  · cases hdone _ hleft
    cases hmem

end Guarded

/-! ## Runs -/

/-- A run that can happen begins with a step that can. -/
theorem run?_cons {event : StopEvent} {rest : List StopEvent} (hrun : s.run? (event :: rest) = some t) :
    ∃ next, s.step? event = some next ∧ next.run? rest = some t :=
  Option.bind_eq_some_iff.mp hrun

/-- Events happen one after the other. -/
theorem run?_append {first rest : List StopEvent} (hrun : s.run? (first ++ rest) = some t) :
    ∃ between, s.run? first = some between ∧ between.run? rest = some t := by
  induction first generalizing s with
  | nil => exact ⟨s, rfl, hrun⟩
  | cons event first ih =>
    obtain ⟨next, hstep, hrest⟩ := run?_cons hrun
    obtain ⟨between, hfirst, hlast⟩ := ih hrest
    exact ⟨between, by rw [run?, hstep, Option.bind_some, hfirst], hlast⟩

/-- Runs keep tasks guarded. -/
theorem Guarded.run (h : s.Guarded) {events : List StopEvent} (hrun : s.run? events = some t) :
    t.Guarded := by
  induction events generalizing s with
  | nil =>
    cases hrun
    exact h
  | cons event rest ih =>
    obtain ⟨next, hstep, hrest⟩ := run?_cons hrun
    exact ih (h.step hstep) hrest

/-- A settled task stays as it is, whatever happens. -/
theorem stateOf_run {events : List StopEvent} (hrun : s.run? events = some t) {task : TaskId}
    {state : Task.State} (hstate : s.tasks.stateOf task = some state) (hdone : state ≠ .pending) :
    t.tasks.stateOf task = some state := by
  induction events generalizing s with
  | nil =>
    cases hrun
    exact hstate
  | cons event rest ih =>
    obtain ⟨next, hstep, hrest⟩ := run?_cons hrun
    exact ih hrest (stateOf_step hstep hstate hdone)

/-- Every offer and every stop leaves its mark. -/
theorem marks_step {event : StopEvent} (hstep : s.step? event = some t) :
    (t.flow.stopped = true ↔ s.flow.stopped = true ∨ .raise = event) ∧
      ∀ task, task ∈ t.offered ↔ task ∈ s.offered ∨ .offer task = event := by
  cases event with
  | make engine =>
    cases hstep
    simp
  | complete task result =>
    cases hstep
    simp
  | offer task =>
    obtain ⟨-, rfl⟩ := of_offer hstep
    cases hstopped : s.flow.stopped with
    | true => simp [Stopping.offer_of_stopped hstopped, hstopped]
    | false => simp [Stopping.offer_of_running hstopped, hstopped]
  | raise =>
    cases hstep
    simp [leaveTo, Flow.raiseStop]
  | take holder =>
    obtain ⟨-, rfl⟩ := of_take hstep
    simp
  | cancel holder =>
    obtain ⟨task, left, -, rfl⟩ := of_cancel hstep
    simp

/-- The flag is up once a stop has begun, and the tasks offered are known. -/
theorem marks_run {events : List StopEvent} (hrun : s.run? events = some t) :
    (t.flow.stopped = true ↔ s.flow.stopped = true ∨ .raise ∈ events) ∧
      ∀ task, task ∈ t.offered ↔ task ∈ s.offered ∨ .offer task ∈ events := by
  induction events generalizing s with
  | nil =>
    cases hrun
    simp
  | cons event rest ih =>
    obtain ⟨next, hstep, hrest⟩ := run?_cons hrun
    obtain ⟨hstopped, hoffered⟩ := marks_step hstep
    obtain ⟨hstopped', hoffered'⟩ := ih hrest
    constructor
    · rw [hstopped', hstopped, List.mem_cons, or_assoc]
    · intro task
      rw [hoffered', hoffered, List.mem_cons, or_assoc]

/-- Before a stop begins nothing is cancelled. -/
theorem cancelled_step (h : s.Guarded) (hrunning : s.flow.stopped = false) {event : StopEvent}
    (hstep : s.step? event = some t) {task : TaskId}
    (hcancelled : t.tasks.stateOf task = some .cancelled) : s.tasks.stateOf task = some .cancelled := by
  cases event with
  | make engine =>
    cases hstep
    exact Tasks.stateOf_of_add hcancelled nofun
  | complete other result =>
    cases hstep
    replace hcancelled : (s.tasks.modify other (·.settle (.ofResult result))).stateOf task =
        some .cancelled := hcancelled
    rw [Tasks.stateOf_modify_settle] at hcancelled
    split at hcancelled
    · obtain ⟨state, hstate, hsettled⟩ := Option.map_eq_some_iff.mp hcancelled
      rw [hstate, Task.State.eq_cancelled_of_orElse_ofResult hsettled]
    · exact hcancelled
  | offer other =>
    obtain ⟨-, rfl⟩ := of_offer hstep
    rwa [tasks_offer] at hcancelled
  | raise =>
    cases hstep
    exact hcancelled
  | take holder =>
    obtain ⟨htake, rfl⟩ := of_take hstep
    exact hcancelled
  | cancel holder =>
    obtain ⟨other, left, hcancel, -⟩ := of_cancel hstep
    exact absurd (hrunning.symm.trans (h.stopped hcancel)) (by simp)

/-- Unless the flow is stopped a run cancels no task. -/
theorem cancelled_run (h : s.Guarded) {events : List StopEvent} (hrun : s.run? events = some t)
    (hrunning : t.flow.stopped = false) {task : TaskId}
    (hcancelled : t.tasks.stateOf task = some .cancelled) : s.tasks.stateOf task = some .cancelled := by
  induction events generalizing s with
  | nil =>
    cases hrun
    exact hcancelled
  | cons event rest ih =>
    obtain ⟨next, hstep, hrest⟩ := run?_cons hrun
    have hbefore : s.flow.stopped = false := by
      rw [← Bool.not_eq_true] at hrunning ⊢
      exact fun htrue => hrunning ((marks_run hrun).1.mpr (Or.inl htrue))
    exact cancelled_step h hbefore hstep (ih (h.step hstep) hrest)

/-- Whatever holders of a flow do at the same time: once a stop has begun and nobody has anything left to
do, every task that was ever offered is settled. A task whose work ended while it was waiting keeps the
result. Until a stop begins no task is cancelled. -/
theorem run_loses_no_cancellation {tasks : Tasks} {events : List StopEvent} {s : Stopping}
    (hrun : (start tasks).run? events = some s) :
    (.raise ∈ events → s.isQuiet = true → ∀ task, .offer task ∈ events →
        ∃ state, s.tasks.stateOf task = some state ∧ state ≠ .pending) ∧
      (∀ before task result later between, events = before ++ .complete task result :: later →
        (start tasks).run? before = some between → between.tasks.stateOf task = some .pending →
          s.tasks.stateOf task = some (.ofResult result)) ∧
      (.raise ∉ events → ∀ task, s.tasks.stateOf task = some .cancelled →
        tasks.stateOf task = some .cancelled) := by
  obtain ⟨hstopped, hoffered⟩ := marks_run hrun
  refine ⟨?_, ?_, ?_⟩
  · intro hraise hquiet task htask
    exact ((Guarded.start tasks).run hrun).settled_of_isQuiet (hstopped.mpr (Or.inr hraise)) hquiet
      ((hoffered task).mpr (Or.inr htask))
  · rintro before task result later between rfl hbefore hwaits
    obtain ⟨between', hbefore', hlater⟩ := run?_append hrun
    obtain rfl := Option.some.inj (hbefore.symm.trans hbefore')
    obtain ⟨next, hstep, hrest⟩ := run?_cons hlater
    cases hstep
    refine stateOf_run hrest ?_ (Task.State.ofResult_ne_pending result)
    refine (Tasks.stateOf_modify_settle _ _ _ _).trans ?_
    rw [if_pos rfl, hwaits, Option.map_some]
    rfl
  · intro hnone task hcancelled
    refine cancelled_run (Guarded.start tasks) hrun ?_ hcancelled
    rw [← Bool.not_eq_true, hstopped]
    rintro (hfalse | hraise)
    · cases hfalse
    · exact hnone hraise

/-- One task is settled by its work while the flow is being stopped, one waits for the stop, and one is
offered between the raising of the flag and the taking of the tasks. -/
def race : List StopEvent :=
  [.make "first", .make "second", .make "third", .offer 0, .offer 1, .raise, .offer 2,
    .complete 0 (.ok ()), .take 0, .cancel 0, .cancel 0, .cancel 1]

/-- In a race of a stop with an offer and the end of a task's work no cancellation is lost; without the
stop there is none. -/
theorem run_loses_no_cancellation_of_race :
    (∃ s, (start {}).run? race = some s ∧ s.isQuiet = true ∧
      s.tasks.stateOf 0 = some .completed ∧
      ∀ task, .offer task ∈ race → ∃ state, s.tasks.stateOf task = some state ∧ state ≠ .pending) ∧
    ∃ s, (start {}).run? (race.take 5) = some s ∧ ∀ task, s.tasks.stateOf task ≠ some .cancelled := by
  constructor
  · have hrun : (start {}).run? race = some _ := rfl
    obtain ⟨hsettled, hkept, -⟩ := run_loses_no_cancellation hrun
    refine ⟨_, hrun, rfl, ?_, ?_⟩
    · exact hkept (race.take 7) 0 (.ok ()) (race.drop 8) _ rfl rfl rfl
    · exact hsettled (by simp [race]) rfl
  · have hrun : (start {}).run? (race.take 5) = some _ := rfl
    obtain ⟨-, -, hnone⟩ := run_loses_no_cancellation hrun
    refine ⟨_, hrun, fun task hcancelled => ?_⟩
    cases hnone (by simp [race]) task hcancelled

end Stopping

end EvidenceFlow
