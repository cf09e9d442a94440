import Mathlib.Data.List.Nodup
import EvidenceFlow.Proofs.Engine.EngineEvents
import EvidenceFlow.Proofs.Engine.Handover
import EvidenceFlow.Proofs.Engine.JobLaw
import EvidenceFlow.Proofs.Engine.TaskSparing
import EvidenceFlow.Session

/-!
# Jobs in queues

When the queue is run, a job in it is run unless one before it broke off, in which case it is dropped;
either way the task of the job takes one of the courses it can take, and what the other jobs do is part
of what happens meanwhile.
-/

namespace EvidenceFlow

variable {υ α : Type}

/-! ## Sessions -/

namespace Session

variable {task : TaskId} {number : Nat}

/-- The scene of the flow of a number. -/
def sceneOf (s : Session υ) (number : Nat) : Scene υ :=
  { flow := (s.flow? number).getD { id := number }, shared := s.shared }

/-- What is done to a session is, to the task of one of its flows, what may happen meanwhile. -/
def Proceeds (task : TaskId) (number : Nat) (s s' : Session υ) : Prop :=
  s'.engines = s.engines ∧ s'.flows.length = s.flows.length ∧
    ∃ events, s'.sceneOf number = TaskEvent.onAll (s.sceneOf number) events ∧
      TaskEvent.Possible (s.sceneOf number) events ∧ ∀ event ∈ events, event.settles task = false

/-- Nothing may happen meanwhile. -/
theorem Proceeds.refl (s : Session υ) : s.Proceeds task number s := ⟨rfl, rfl, [], rfl, trivial, nofun⟩

/-- One thing after the other may happen meanwhile. -/
theorem Proceeds.trans {s s' s'' : Session υ} (h : s.Proceeds task number s')
    (h' : s'.Proceeds task number s'') : s.Proceeds task number s'' := by
  obtain ⟨hengines, hflows, events, hevents, hpossible, hspared⟩ := h
  obtain ⟨hengines', hflows', later, hlater, hpossible', hspared'⟩ := h'
  refine ⟨hengines'.trans hengines, hflows'.trans hflows, events ++ later, ?_,
    hpossible.append (hevents ▸ hpossible'), List.forall_mem_append.mpr ⟨hspared, hspared'⟩⟩
  rw [hlater, hevents, TaskEvent.onAll_append]

/-- No task goes away meanwhile. -/
theorem Proceeds.lt_length {s s' : Session υ} (h : s.Proceeds task number s')
    (htask : task < s.shared.tasks.table.length) : task < s'.shared.tasks.table.length := by
  obtain ⟨-, -, events, hevents, -, -⟩ := h
  have hshared : s'.shared = (TaskEvent.onAll (s.sceneOf number) events).shared :=
    congrArg Scene.shared hevents
  rw [hshared]
  exact Nat.lt_of_lt_of_le htask (TaskEvent.length_tasks_le events (s.sceneOf number))

/-- An act on a flow is one on its scene. -/
theorem sceneOf_act_self {s : Session υ} (hthere : number < s.flows.length) (act : Act υ α) :
    (s.act number act).2.sceneOf number = (act.runOn (s.sceneOf number)).2 := by
  have hflow : (s.act number act).2.flow? number = some (act.runOn (s.sceneOf number)).2.flow := by
    change (s.flows.modify number fun _ => (act.runOn (s.sceneOf number)).2.flow)[number]? = _
    rw [List.getElem?_modify_eq, List.getElem?_eq_getElem hthere]
    rfl
  rw [sceneOf, hflow]
  rfl

/-- An act on another flow is seen by what becomes of what is kept between flows. -/
theorem sceneOf_act_of_ne {other : Nat} (h : other ≠ number) (s : Session υ) (act : Act υ α) :
    (s.act other act).2.sceneOf number =
      { flow := (s.sceneOf number).flow, shared := (act.runOn (s.sceneOf other)).2.shared } := by
  have hflow : (s.act other act).2.flow? number = s.flow? number :=
    List.getElem?_modify_ne _ _ h
  rw [sceneOf, hflow]
  rfl

/-- An act that spares a task is what may happen meanwhile. -/
theorem proceeds_act {s : Session υ} {act : Act υ α} (hspares : act.Spares task)
    (htask : task < s.shared.tasks.table.length) (hthere : number < s.flows.length) (other : Nat) :
    s.Proceeds task number (s.act other act).2 := by
  obtain ⟨events, hevents, hpossible, hspared⟩ := hspares (s.sceneOf other) htask
  refine ⟨rfl, List.length_modify .., ?_⟩
  -- a flow sees of what is done to another one only what becomes of what they share
  by_cases hsame : other = number
  · subst hsame
    exact ⟨events, (sceneOf_act_self hthere act).trans hevents, hpossible, hspared⟩
  · obtain ⟨mirrored, hmirrored, hpossible', hspared'⟩ :=
      TaskEvent.exists_mirrored (s.sceneOf number).flow events (s.sceneOf other) hspared
    refine ⟨mirrored, ?_, hpossible', hspared'⟩
    rw [sceneOf_act_of_ne hsame, hevents]
    exact hmirrored.symm

/-- Each engine does to tasks what may happen to them in any case. -/
def Lawful (s : Session υ) : Prop := ∀ e ∈ s.engines, ∃ does, e.engine.Does does

variable {s : Session υ}

/-- A job that is dropped is, to the tasks of others, what may happen meanwhile. -/
theorem proceeds_dropJob (htask : task < s.shared.tasks.table.length)
    (hthere : number < s.flows.length) {job : Job} (hother : job.task ≠ task) :
    s.Proceeds task number (s.dropJob job) := by
  rw [dropJob]
  split
  · exact proceeds_act (EngineElement.spares_dropJob _ hother) htask hthere _
  · exact .refl s

/-- A job that is run is, to the tasks of others, what may happen meanwhile. -/
theorem proceeds_runJob (hlawful : s.Lawful) (htask : task < s.shared.tasks.table.length)
    (hthere : number < s.flows.length) {job : Job} (hother : job.task ≠ task) :
    s.Proceeds task number (s.runJob job).2 := by
  rw [runJob]
  split
  · next e he =>
    obtain ⟨does, hdoes⟩ := hlawful e (List.mem_of_find?_eq_some he)
    exact proceeds_act (EngineElement.spares_runJob hdoes hother) htask hthere _
  · exact .refl s

/-- Jobs that are dropped are, to the tasks of others, what may happen meanwhile. -/
theorem proceeds_dropJobs (jobs : List Job) {s : Session υ}
    (htask : task < s.shared.tasks.table.length) (hthere : number < s.flows.length)
    (hothers : ∀ job ∈ jobs, job.task ≠ task) : s.Proceeds task number (s.dropJobs jobs) := by
  induction jobs generalizing s with
  | nil => exact .refl s
  | cons job rest ih =>
    have hfirst := proceeds_dropJob htask hthere (hothers job List.mem_cons_self)
    refine hfirst.trans (ih (hfirst.lt_length htask) (hfirst.2.1.symm ▸ hthere) fun other hother => ?_)
    exact hothers other (List.mem_cons_of_mem _ hother)

/-- Jobs that are run are, to the tasks of others, what may happen meanwhile. -/
theorem proceeds_runJobs (jobs : List Job) {s : Session υ} (hlawful : s.Lawful)
    (htask : task < s.shared.tasks.table.length) (hthere : number < s.flows.length)
    (hothers : ∀ job ∈ jobs, job.task ≠ task) : s.Proceeds task number (runJobs jobs s).2 := by
  induction jobs generalizing s with
  | nil => exact .refl s
  | cons job rest ih =>
    have hrest : ∀ other ∈ rest, other.task ≠ task := fun other hother =>
      hothers other (List.mem_cons_of_mem _ hother)
    have hfirst := proceeds_runJob hlawful htask hthere (hothers job List.mem_cons_self)
    rw [runJobs]
    rcases hrun : s.runJob job with ⟨halt | _, s'⟩ <;> rw [hrun] at hfirst
    · exact hfirst.trans
        (proceeds_dropJobs rest (hfirst.lt_length htask) (hfirst.2.1.symm ▸ hthere) hrest)
    · have hlawful' : s'.Lawful := fun e he => hlawful e (hfirst.1 ▸ he)
      exact hfirst.trans (ih hlawful' (hfirst.lt_length htask) (hfirst.2.1.symm ▸ hthere) hrest)

/-- Jobs in two parts are run one part after the other, unless the first one breaks off. -/
theorem runJobs_append (jobs later : List Job) (s : Session υ) :
    runJobs (jobs ++ later) s =
      match runJobs jobs s with
      | (.ok (), s) => runJobs later s
      | (.error halt, s) => (.error halt, s.dropJobs later) := by
  induction jobs generalizing s with
  | nil => rfl
  | cons job rest ih =>
    rw [List.cons_append, runJobs, runJobs]
    rcases s.runJob job with ⟨halt | _, s'⟩
    · exact congrArg (Prod.mk _) (List.foldl_append ..)
    · exact ih s'

/-- The session is where the course of a job has come to. -/
structure Hosts (s : Session υ) (e : EngineElement υ) (job : Job) (c : Course υ) : Prop where
  /-- The scene of the job's flow is that of the course. -/
  scene : s.sceneOf job.flow = c.scene
  /-- The flow is there. -/
  flow : job.flow < s.flows.length
  /-- The engine of the job is there. -/
  engine : s.engine? job.element = some e
  /-- Each engine does to tasks what may happen to them in any case. -/
  lawful : s.Lawful

namespace Hosts

variable {e : EngineElement υ} {job : Job} {c : Course υ}

/-- What happens meanwhile is part of the course, and leaves alone how far the job has come. -/
theorem proceeds (h : s.Hosts e job c) {s' : Session υ} (hs : s.Proceeds job.task job.flow s') :
    ∃ steps, job.Spared steps ∧ s'.Hosts e job (c.after e job steps) ∧
      (c.after e job steps).stage = c.stage := by
  obtain ⟨hengines, hflows, events, hevents, hpossible, hspared⟩ := hs
  rw [h.scene] at hevents hpossible
  obtain ⟨steps, hother, hspared', hscene⟩ := Course.meets_calls e events c hpossible hspared
  refine ⟨steps, hspared', ⟨hevents.trans hscene.symm, hflows.symm ▸ h.flow, ?_, fun e he => ?_⟩,
    (Course.after_of_isOther hother c).1⟩
  · rw [engine?, hengines]
    exact h.engine
  · exact h.lawful e (hengines ▸ he)

/-- The executor that lets go of the job takes the course on. -/
theorem act (h : s.Hosts e job c) {act : Act υ Unit} {steps : List (JobEvent υ)}
    (hact : (c.after e job steps).scene = (act.runOn c.scene).2) :
    (s.act job.flow act).2.Hosts e job (c.after e job steps) where
  scene := by rw [sceneOf_act_self h.flow, h.scene, hact]
  flow := Nat.lt_of_lt_of_eq h.flow (List.length_modify ..).symm
  engine := h.engine
  lawful := h.lawful

/-- The task of the job is there. -/
theorem lt_length (h : s.Hosts e job c) {state : Task.State} (hsound : c.Sound job state) :
    job.task < s.shared.tasks.table.length := by
  have hshared : s.shared = c.scene.shared := congrArg Scene.shared h.scene
  rw [hshared]
  exact Tasks.lt_length_of_stateOf hsound.state?

end Hosts

/-- The queue is emptied. -/
theorem proceeds_takeQueue (s : Session υ) : s.Proceeds task number s.takeQueue.2 := by
  refine ⟨rfl, rfl, [.elsewhere (s.takeQueue.2.sceneOf number)], ?_, ⟨trivial, trivial⟩,
    by simp [TaskEvent.settles]⟩
  exact (Scene.amend_eq rfl rfl (Nat.le_refl _) rfl).symm

/-- What the executor does with a job that comes behind others in the queue: it runs it unless one of
them broke off. -/
def turn (s : Session υ) (ahead : List Job) : JobEvent υ :=
  if (runJobs ahead s.takeQueue.2).1.toBool then .run else .drop

/-- The course of a job in the queue goes on, by what happens meanwhile, to the event by which the executor
lets go of it, and further until the job has come to its end. -/
def Reaches (s' : Session υ) (e : EngineElement υ) (job : Job) (c : Course υ) (event : JobEvent υ) : Prop :=
  ∃ more later, job.Spared (more ++ event :: later) ∧ (c.after e job more).stage = .held ∧
    s'.Hosts e job (c.after e job (more ++ event :: later)) ∧
    (c.after e job (more ++ event :: later)).stage = .gone

variable {e : EngineElement υ} {job : Job} {c : Course υ} {state : Task.State}

/-- A job of which the executor lets go comes to its end, and what becomes of those behind it happens
meanwhile. -/
theorem Hosts.ends (h : s.Hosts e job c) (hsound : c.Sound job state) {act : Act υ Unit}
    {event : JobEvent υ} (hspares : event.settles job.task = false)
    (hends : (c.step e job event).Ends e job (act.runOn c.scene).2) {s' : Session υ}
    (hs : job.task < (s.act job.flow act).2.shared.tasks.table.length →
      (s.act job.flow act).2.Proceeds job.task job.flow s') :
    ∃ later, job.Spared (event :: later) ∧ s'.Hosts e job (c.after e job (event :: later)) ∧
      (c.after e job (event :: later)).stage = .gone := by
  obtain ⟨steps, hspared, hscene, hgone⟩ := hends
  have hspared' : job.Spared (event :: steps) := List.forall_mem_cons.mpr ⟨hspares, hspared⟩
  have hnext : (s.act job.flow act).2.Hosts e job (c.after e job (event :: steps)) := h.act hscene
  obtain ⟨state', hsound'⟩ := hsound.after e hspared'
  obtain ⟨later, hlater, hhosts, hstage⟩ := hnext.proceeds (hs (hnext.lt_length hsound'))
  rw [← Course.after_append, List.cons_append] at hhosts hstage
  have hboth : job.Spared (event :: steps ++ later) := List.forall_mem_append.mpr ⟨hspared', hlater⟩
  exact ⟨steps ++ later, hboth, hhosts, hstage.trans hgone⟩

/-- A job that is run with those behind it comes to its end. -/
theorem Hosts.ends_runJobs {does : ObjectId → Scene υ → List (TaskEvent υ)} (hdoes : e.engine.Does does)
    (h : s.Hosts e job c) (hsound : c.Sound job state) (hheld : c.stage = .held) {behind : List Job}
    (hothers : ∀ other ∈ behind, other.task ≠ job.task) :
    ∃ later, job.Spared (.run :: later) ∧
      (runJobs (job :: behind) s).2.Hosts e job (c.after e job (.run :: later)) ∧
      (c.after e job (.run :: later)).stage = .gone := by
  have hrun : s.runJob job = s.act job.flow (e.runJob job) := by rw [runJob, h.engine]
  have hflow : job.flow < (s.act job.flow (e.runJob job)).2.flows.length :=
    Nat.lt_of_lt_of_eq h.flow (List.length_modify ..).symm
  have hthere : job.task < c.scene.shared.tasks.table.length := Tasks.lt_length_of_stateOf hsound.state?
  refine h.ends hsound rfl (Course.ends_of_run hdoes hheld hthere) fun htask => ?_
  have hlawful : (s.act job.flow (e.runJob job)).2.Lawful := h.lawful
  rw [runJobs, hrun]
  rcases hact : s.act job.flow (e.runJob job) with ⟨halt | _, s'⟩ <;>
    rw [hact] at htask hflow hlawful
  · exact proceeds_dropJobs behind htask hflow hothers
  · exact proceeds_runJobs behind hlawful htask hflow hothers

/-- A job that is dropped with those behind it comes to its end. -/
theorem Hosts.ends_dropJobs (h : s.Hosts e job c) (hsound : c.Sound job state) (hheld : c.stage = .held)
    {behind : List Job} (hothers : ∀ other ∈ behind, other.task ≠ job.task) :
    ∃ later, job.Spared (.drop :: later) ∧
      (s.dropJobs (job :: behind)).Hosts e job (c.after e job (.drop :: later)) ∧
      (c.after e job (.drop :: later)).stage = .gone := by
  have hdrop : s.dropJob job = (s.act job.flow (e.dropJob job)).2 := by rw [dropJob, h.engine]
  have hflow : job.flow < (s.act job.flow (e.dropJob job)).2.flows.length :=
    Nat.lt_of_lt_of_eq h.flow (List.length_modify ..).symm
  refine h.ends hsound rfl (Course.ends_of_drop hheld) fun htask => ?_
  rw [dropJobs, List.foldl_cons, hdrop]
  exact proceeds_dropJobs behind htask hflow hothers

/-- What happens meanwhile brings the course to where the executor lets go of the job. -/
theorem reaches_of_later {s' s'' : Session υ} (hhosts : s.Hosts e job c) (hsound : c.Sound job state)
    (hheld : c.stage = .held) (hs : s.Proceeds job.task job.flow s') {event : JobEvent υ}
    (h : ∀ (c : Course υ) state, s'.Hosts e job c → c.Sound job state → c.stage = .held →
      ∃ later, job.Spared (event :: later) ∧ s''.Hosts e job (c.after e job (event :: later)) ∧
        (c.after e job (event :: later)).stage = .gone) : s''.Reaches e job c event := by
  obtain ⟨more, hmore, hmet, hstage⟩ := hhosts.proceeds hs
  obtain ⟨state', hsound'⟩ := hsound.after e hmore
  obtain ⟨later, hlater, hends, hgone⟩ := h _ state' hmet hsound' (hstage.trans hheld)
  rw [← Course.after_append] at hends hgone
  exact ⟨more, later, List.forall_mem_append.mpr ⟨hmore, hlater⟩, hstage.trans hheld, hends, hgone⟩

variable {does : ObjectId → Scene υ → List (TaskEvent υ)} {ahead behind : List Job}

/-- A job in the queue is run when its turn comes, unless one before it breaks off; then it is
dropped. -/
theorem Hosts.reaches_runQueue (hdoes : e.engine.Does does) (h : s.Hosts e job c)
    (hsound : c.Sound job state) (hheld : c.stage = .held)
    (hqueue : s.shared.queue = ahead ++ job :: behind)
    (hahead : ∀ other ∈ ahead, other.task ≠ job.task)
    (hbehind : ∀ other ∈ behind, other.task ≠ job.task) :
    s.runQueue.2.Reaches e job c (s.turn ahead) := by
  have htaken : s.Proceeds job.task job.flow s.takeQueue.2 := s.proceeds_takeQueue
  have hran := proceeds_runJobs ahead (s := s.takeQueue.2) h.lawful
    (htaken.lt_length (h.lt_length hsound)) h.flow hahead
  have hrun : s.runQueue.2 = (runJobs (ahead ++ job :: behind) s.takeQueue.2).2 := by
    rw [← hqueue]
    rfl
  refine reaches_of_later h hsound hheld (htaken.trans hran) fun c state hmet hsound hheld => ?_
  rw [hrun, runJobs_append, turn]
  -- a job ahead that breaks off lets all those behind it be dropped
  rcases hbroke : runJobs ahead s.takeQueue.2 with ⟨halt | _, s'⟩ <;> rw [hbroke] at hmet
  · exact hmet.ends_dropJobs hsound hheld hbehind
  · exact hmet.ends_runJobs hdoes hsound hheld hbehind

/-- A job in a queue that is dropped is dropped. -/
theorem Hosts.reaches_dropQueue (h : s.Hosts e job c) (hsound : c.Sound job state)
    (hheld : c.stage = .held) (hqueue : s.shared.queue = ahead ++ job :: behind)
    (hahead : ∀ other ∈ ahead, other.task ≠ job.task)
    (hbehind : ∀ other ∈ behind, other.task ≠ job.task) : s.dropQueue.Reaches e job c .drop := by
  have htaken : s.Proceeds job.task job.flow s.takeQueue.2 := s.proceeds_takeQueue
  have hdropped := proceeds_dropJobs ahead (s := s.takeQueue.2)
    (htaken.lt_length (h.lt_length hsound)) h.flow hahead
  have hdrop : s.dropQueue = (s.takeQueue.2.dropJobs ahead).dropJobs (job :: behind) := by
    rw [dropJobs, dropJobs, ← List.foldl_append, ← hqueue]
    rfl
  refine reaches_of_later h hsound hheld (htaken.trans hdropped) fun c state hmet hsound hheld => ?_
  rw [hdrop]
  exact hmet.ends_dropJobs hsound hheld hbehind

end Session

/-! ## Jobs that are taken -/

/-- Each job in the queue has a task of its own, which has been made. -/
structure Shared.QueueApart (shared : Shared υ) : Prop where
  /-- No two jobs have the same task. -/
  distinct : (shared.queue.map Job.task).Nodup
  /-- The tasks have been made. -/
  made : ∀ job ∈ shared.queue, job.task < shared.tasks.table.length

/-- A job in the queue has another task than those ahead and behind. -/
theorem Shared.QueueApart.task_ne {shared : Shared υ} (h : shared.QueueApart) {ahead behind : List Job}
    {job : Job} (hqueue : shared.queue = ahead ++ job :: behind) :
    (∀ other ∈ ahead, other.task ≠ job.task) ∧ ∀ other ∈ behind, other.task ≠ job.task := by
  have hdistinct := h.distinct
  rw [hqueue, List.map_append, List.map_cons, List.nodup_middle, List.nodup_cons, ← List.map_append]
    at hdistinct
  have hothers : ∀ other ∈ ahead ++ behind, other.task ≠ job.task := fun other hother hsame =>
    hdistinct.1 (List.mem_map.mpr ⟨other, hother, hsame⟩)
  exact ⟨fun other hother => hothers other (List.mem_append_left _ hother),
    fun other hother => hothers other (List.mem_append_right _ hother)⟩

namespace EngineElement

/-- A job that is handed over to the queue has a task of its own. -/
theorem queueApart_runLazily (e : EngineElement υ) {dispatch : Dispatch}
    (hmanual : dispatch.executor = .manual) (object : ObjectId) (key : Option Fingerprint)
    {scene : Scene υ} (h : scene.shared.QueueApart) :
    ((e.runLazily dispatch object key).runOn scene).2.shared.QueueApart := by
  have hqueue : (e.handed dispatch object key scene).shared.queue =
      scene.shared.queue ++ [e.jobFor object key scene] := by
    rw [handed, hmanual]
    rfl
  have htasks := e.length_tasks_handed dispatch object key scene
  rw [e.runOn_runLazily_of_manual hmanual]
  refine ⟨?_, fun job hjob => ?_⟩
  · rw [hqueue, List.map_append]
    refine h.distinct.append (List.nodup_singleton _) (List.disjoint_singleton.mpr fun hmem => ?_)
    obtain ⟨other, hother, hsame⟩ := List.mem_map.mp hmem
    exact absurd (h.made other hother) (Nat.not_lt.mpr (Nat.le_of_eq hsame.symm))
  · rw [hqueue, List.mem_append, List.mem_singleton] at hjob
    rw [htasks]
    rcases hjob with hjob | rfl
    · exact Nat.lt_succ_of_lt (h.made job hjob)
    · exact Nat.lt_succ_self _

/-- The task of a job that an executor has taken is settled once and rightly, whatever happens between its
steps and in whichever order, also if a stop of the flow has begun before, or before the task is offered to
the flow. What runs is one of these courses: a job is handed over to where it is kept or comes to its end,
and a job in the queue is run or dropped when the queue is. -/
theorem resolves_of_accepts {e : EngineElement υ} {does : ObjectId → Scene υ → List (TaskEvent υ)}
    (hdoes : e.engine.Does does) {dispatch : Dispatch} {object : ObjectId} (key : Option Fingerprint)
    {scene : Scene υ} {offered : List TaskId} {pending : List StopStage}
    (hguarded : ({ flow := scene.flow, tasks := scene.shared.tasks, offered, pending } : Stopping).Guarded)
    (hobject : object < scene.flow.objects.length)
    (haccepts : e.Accepts scene.shared dispatch.executor) :
    let job := e.jobFor object key scene
    let start := e.dispatched dispatch object key scene offered pending
    (∃ a, (start []).scene.flow.object? object = some a ∧ job.task ∈ a.taskIds) ∧
      (∀ between, job.Spared between → (∀ event ∈ between, event.isOther = true) →
        e.Resolves job (start between)) ∧
      (∃ events, job.Spared events ∧
        ((start []).after e job events).scene = ((e.runLazily dispatch object key).runOn scene).2 ∧
        ((start []).after e job events).stage = if dispatch.executor.isManual then .held else .gone) ∧
      ∀ (s : Session υ) (before : List (JobEvent υ)), job.Spared before →
        ((start []).after e job before).stage = .held → s.Hosts e job ((start []).after e job before) →
        s.shared.QueueApart → ∀ ahead behind, s.shared.queue = ahead ++ job :: behind →
          s.runQueue.2.Reaches e job ((start []).after e job before) (s.turn ahead) ∧
            s.dropQueue.Reaches e job ((start []).after e job before) .drop := by
  intro job start
  refine ⟨e.exists_registered dispatch key offered pending hobject, fun between hspared hothers => ?_,
    course_runLazily hdoes haccepts, ?_⟩
  · obtain ⟨⟨state, hsound⟩, hheld⟩ := e.sound_dispatched dispatch key hguarded hobject hspared hothers
    exact resolves hsound hheld
  · intro s before hspared hstage hhosts hapart ahead behind hqueue
    have hnone : job.Spared ([] : List (JobEvent υ)) := nofun
    obtain ⟨⟨state, hsound⟩, -⟩ :=
      e.sound_dispatched dispatch key hguarded hobject hnone nofun
    obtain ⟨hahead, hbehind⟩ := hapart.task_ne hqueue
    obtain ⟨state', hsound'⟩ := hsound.after e hspared
    exact ⟨hhosts.reaches_runQueue hdoes hsound' hstage hqueue hahead hbehind,
      hhosts.reaches_dropQueue hsound' hstage hqueue hahead hbehind⟩

/-! ## Two jobs in the queue -/

/-- The script of an engine that stops the flow. -/
def stoppingScript : Script :=
  { number := 1, key := "device", name := "stopping", filter := .all, actions := [.stop] }

/-- An engine that breaks off. -/
def breakingEngine : FixedEngine := { number := 0, key := "device", name := "breaking", breaksOff := true }

/-- The engine breaks off. -/
def breaking : EngineElement Journal := { number := 0, engine := breakingEngine.toEngine }

/-- The engine stops the flow while it works. -/
def stopping : EngineElement Journal := { number := 1, engine := stoppingScript.toEngine }

/-- Jobs are kept in the queue. -/
def queued : Dispatch := { timeout := .ofMillis 500, executor := .manual, owned := true }

/-- A job of the engine that breaks off is in the queue. -/
def firstQueued : Scene Journal :=
  ((breaking.runLazily queued 0 none).runOn
    { flow := { objects := [{ key := "device" }] }, shared := { user := {} } }).2

/-- A job of the engine that stops the flow comes next. -/
def bothQueued : Scene Journal := ((stopping.runLazily queued 0 none).runOn firstQueued).2

/-- The session in which both jobs are in the queue. -/
def queueSession : Session Journal where
  pipeline := { stages := [] }
  engines := [breaking, stopping]
  flows := [bothQueued.flow]
  shared := bothQueued.shared

/-- The task of the second job is settled as it has to be; when the queue is run the job is dropped,
since the first one breaks off. -/
theorem resolves_of_accepts_of_breaking :
    let job := stopping.jobFor 0 none firstQueued
    let start := stopping.dispatched queued 0 none firstQueued [0] [] []
    let course := start.after stopping job [.elsewhere bothQueued]
    stoppingScript.toEngine.Does stoppingScript.events ∧
      ({ flow := firstQueued.flow, tasks := firstQueued.shared.tasks, offered := [0] } :
        Stopping).Guarded ∧
      0 < firstQueued.flow.objects.length ∧ stopping.Accepts firstQueued.shared queued.executor ∧
      stopping.Resolves job start ∧
      queueSession.Hosts stopping job course ∧ queueSession.shared.QueueApart ∧
      queueSession.turn firstQueued.shared.queue = .drop ∧
      queueSession.runQueue.2.Reaches stopping job course .drop := by
  intro job start course
  have hguarded : ({ flow := firstQueued.flow, tasks := firstQueued.shared.tasks, offered := [0] } :
      Stopping).Guarded := by
    refine ⟨fun task htask => ?_, fun _ => rfl, fun hstopped => ?_⟩
    · obtain rfl := List.mem_singleton.mp htask
      exact ⟨.pending, rfl, fun _ => .inl (List.mem_singleton.mpr rfl)⟩
    · cases hstopped
  have hthere : 0 < firstQueued.flow.objects.length := by decide
  have haccepts : stopping.Accepts firstQueued.shared queued.executor := trivial
  have hmanual : queued.executor = .manual := rfl
  have hhosts : queueSession.Hosts stopping job course := by
    refine ⟨rfl, by decide, rfl, fun e he => ?_⟩
    rcases List.mem_cons.mp he with rfl | he
    · exact ⟨_, breakingEngine.does⟩
    · obtain rfl := List.mem_singleton.mp he
      exact ⟨_, stoppingScript.does⟩
  have hfirst : firstQueued.shared.QueueApart := by
    refine breaking.queueApart_runLazily hmanual 0 none ⟨List.nodup_nil, fun job hjob => ?_⟩
    cases hjob
  have hapart : queueSession.shared.QueueApart :=
    stopping.queueApart_runLazily hmanual 0 none hfirst
  have hturn : queueSession.turn firstQueued.shared.queue = .drop := rfl
  obtain ⟨-, hresolves, -, hqueue⟩ :=
    resolves_of_accepts (e := stopping) stoppingScript.does none hguarded hthere haccepts
  have hstart : stopping.Resolves job start := hresolves [] nofun nofun
  have hspared : job.Spared [.elsewhere bothQueued] := by simp [Job.Spared, JobEvent.settles]
  obtain ⟨hrun, -⟩ := hqueue queueSession [.elsewhere bothQueued] hspared rfl hhosts hapart
    firstQueued.shared.queue [] rfl
  exact ⟨stoppingScript.does, hguarded, hthere, haccepts, hstart, hhosts, hapart, hturn, hturn ▸ hrun⟩

/-! ## Races -/

/-- An engine with fixed results, which are none. -/
def steadyEngine : FixedEngine := { number := 0, key := "device", name := "steady" }

/-- The engine with a store of results. -/
def steady : EngineElement Journal := { number := 0, engine := steadyEngine.toEngine, cached := true }

/-- A result from before. -/
def formerResult : Aspect := { key := "device", engines := ["former"] }

/-- A store that has a result from before, which may be replaced or not. -/
def formerStore (updateExisting : Bool) : KeyedStore Aspect where
  filter := .all
  store := (Store.lru (.ofSettings Fingerprint.size { capacity := 4, updateExisting })).put ⟨[]⟩ formerResult

/-- A flow without evidence that comes to the engine. -/
def formerScene (updateExisting : Bool) : Scene Journal where
  flow := { objects := [{ key := "device" }] }
  shared := { user := {}, results := [(0, formerStore updateExisting)] }

/-- A task that is cancelled after the job has looked at it for the last time is cancelled though its result is
in the store. A flow whose stop has begun before its task is settled leaves the task completed, if the job is
faster than who stops the flow. And a store that replaces nothing keeps the result from before when a task is
completed. -/
theorem races_of_steady :
    let job := steady.jobFor 0 (some ⟨[]⟩) (formerScene true)
    let start (update : Bool) := steady.dispatched queued 0 (some ⟨[]⟩) (formerScene update) [] [] []
    let stored (c : Course Journal) := (c.scene.shared.results.lookup 0).map fun store => (store.get ⟨[]⟩).1
    let returned : List (JobEvent Journal) := [.run, .own, .own, .returns (.ok ())]
    let struck :=
      (start true).after steady job (returned ++ .own :: .strike job.task :: List.replicate 6 .own)
    let raised := (start true).after steady job (returned ++ [.holder .raise])
    let outran := raised.after steady job (List.replicate 7 .own)
    let completed := (start false).after steady job (returned ++ List.replicate 7 .own)
    (struck.stage = .gone ∧ struck.state? job = some .cancelled ∧
        stored struck = some (.value { key := "device" })) ∧
      (raised.scene.flow.stopped = true ∧ raised.state? job = some .pending ∧ outran.stage = .gone ∧
        outran.state? job = some .completed) ∧
      completed.stage = .gone ∧ completed.state? job = some .completed ∧
        stored completed = some (.value formerResult) :=
  ⟨⟨rfl, rfl, rfl⟩, ⟨rfl, rfl, rfl, rfl⟩, rfl, rfl, rfl⟩

end EngineElement

end EvidenceFlow
