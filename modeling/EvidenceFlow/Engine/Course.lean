import EvidenceFlow.Engine
import EvidenceFlow.Flow.Stopping

/-!
# The course of a job

A job goes its way step by step, while others stop its flow, cancel its task and change whatever else
there is: between any two steps everything can happen. A job that is run looks whether the flow has been
stopped and then whether its task was cancelled, calls the engine, looks at the task once more, copies
the result object part by part, hands the copy to the store of results, and settles the task. However it
ends, its guard takes the last steps, which settle a task that is not settled by then.

Others act step by step too: who stops the flow raises its flag, takes the tasks that wait for the stop
and cancels them one by one, and who waits for several tasks cancels one after the other.
-/

namespace EvidenceFlow

variable {υ : Type}

/-- How far a job has come: what it is about to do. -/
inductive JobStage where
  /-- The executor has it. -/
  | held
  /-- To look whether the flow has been stopped. -/
  | begun
  /-- To look whether the task was cancelled, before the engine is called. -/
  | asking
  /-- To cancel the task, since the engine is not to be called. -/
  | withdrawing
  /-- The engine has been called and works. -/
  | working
  /-- To look whether the task was cancelled, after the engine has succeeded. -/
  | returned
  /-- To copy the properties of the result object. -/
  | copying
  /-- To copy the names of the engines to what has been copied of the result object. -/
  | copyingEngines (copy : Aspect)
  /-- To copy what the engines declare to what has been copied of the result object. -/
  | copyingDeclared (copy : Aspect)
  /-- To hand the copy of the result object to the store of results. -/
  | keeping (copy : Aspect)
  /-- To settle the task by the result of the engine. -/
  | settling (result : Except Fault Unit)
  /-- Its guard is to look whether the task is settled. -/
  | leaving (reason : String)
  /-- Its guard is to look whether the flow has been stopped. -/
  | abandoning (reason : String)
  /-- Its guard is to cancel the task. -/
  | cancelling
  /-- Its guard is to let the task fail. -/
  | failing (reason : String)
  /-- It has come to its end. -/
  | gone

namespace JobStage

/-- What comes when the call of the engine has ended: a fault is not looked at any further, and if the
engine broke off, only the guard is left. -/
def ofEnd : Except Halt Unit → JobStage
  | .ok () => .returned
  | .error (.fault fault) => .settling (.error fault)
  | .error (.panic _) => .leaving EngineElement.brokenOff

end JobStage

/-- What happens next. -/
inductive JobEvent (υ : Type) where
  /-- Somebody who has the flow in hand goes on by one step. -/
  | holder (event : StopEvent)
  /-- Somebody who waits for it cancels one task. -/
  | strike (task : TaskId)
  /-- Something else happens that has nothing to do with tasks. -/
  | elsewhere (next : Scene υ)
  /-- The executor begins to run the job. -/
  | run
  /-- The executor drops the job. -/
  | drop
  /-- The call of the engine ends. -/
  | returns (ended : Except Halt Unit)
  /-- The job goes on by one step of its own. -/
  | own

/-- A job on its way among others. -/
structure Course (υ : Type) where
  /-- The scene. -/
  scene : Scene υ
  /-- The tasks offered to the flow so far. -/
  offered : List TaskId := []
  /-- What others who have the flow in hand are about to do. -/
  pending : List StopStage := []
  /-- How far the job has come. -/
  stage : JobStage := .held
  /-- How often the job has called the engine. -/
  calls : Nat := 0
  /-- The copy of the result object that the job has handed to the store of results. -/
  kept : Option Aspect := none

/-- The next scene, but for what has to do with tasks; the result objects stay. -/
def Scene.amend (scene next : Scene υ) : Scene υ where
  flow :=
    { next.flow with
      stopped := scene.flow.stopped
      hooks := scene.flow.hooks
      objects :=
        if scene.flow.objects.length ≤ next.flow.objects.length then next.flow.objects
        else scene.flow.objects }
  shared := { next.shared with tasks := scene.shared.tasks }

/-- What is kept between flows once a result is. -/
def EngineElement.keepIn (e : EngineElement υ) (key : Option Fingerprint) (a : Aspect)
    (shared : Shared υ) : Shared υ :=
  match key, shared.results.lookup e.number with
  | some key, some store =>
    { shared with results := shared.results.put e.number (store.put key a.snapshot) }
  | _, _ => shared

namespace Course

/-- The state of the flow and of the tasks, as its holders see it. -/
def stopping (c : Course υ) : Stopping where
  flow := c.scene.flow
  tasks := c.scene.shared.tasks
  offered := c.offered
  pending := c.pending

/-- The course after holders of the flow have changed what they see. -/
def withStopping (c : Course υ) (s : Stopping) : Course υ :=
  { c with
    scene := { flow := s.flow, shared := { c.scene.shared with tasks := s.tasks } }
    offered := s.offered
    pending := s.pending }

/-- The course after an act on the scene, in one step. -/
def act {α : Type} (c : Course υ) (act : Act υ α) : Course υ := { c with scene := (act.runOn c.scene).2 }

/-- The course with the job at another stage. -/
def goTo (c : Course υ) (stage : JobStage) : Course υ := { c with stage }

/-- The course after the job has copied a part of its result object. -/
def copyPart (job : Job) (c : Course υ) (next : Aspect → JobStage) : Course υ :=
  c.goTo ((c.scene.flow.object? job.object).elim (.settling (.ok ())) next)

/-- The course after the job has gone on by one step of its own, if it does not wait for others. -/
def goOn (e : EngineElement υ) (job : Job) (c : Course υ) : Course υ :=
  match c.stage with
  | .begun => c.goTo (if c.scene.flow.stopped then .withdrawing else .asking)
  | .asking =>
    if c.scene.shared.tasks.isCancelled job.task then c.goTo .withdrawing
    else { c.goTo .working with calls := c.calls + 1 }
  | .withdrawing => (c.act (Act.cancel job.task)).goTo (.leaving EngineElement.brokenOff)
  | .returned =>
    c.goTo (if c.scene.shared.tasks.isCancelled job.task then .settling (.ok ()) else .copying)
  | .copying =>
    c.copyPart job fun left => .copyingEngines { key := left.key, properties := left.properties }
  | .copyingEngines copy =>
    c.copyPart job fun left => .copyingDeclared { copy with engines := left.engines }
  | .copyingDeclared copy => c.copyPart job fun left => .keeping { copy with declared := left.declared }
  | .keeping copy =>
    { c with
      scene := { c.scene with shared := e.keepIn job.key copy c.scene.shared }
      stage := .settling (.ok ())
      kept := some copy }
  | .settling result =>
    (c.act (Act.complete job.task result)).goTo (.leaving EngineElement.brokenOff)
  | .leaving reason =>
    c.goTo (if c.scene.shared.tasks.isDone job.task then .gone else .abandoning reason)
  | .abandoning reason => c.goTo (if c.scene.flow.stopped then .cancelling else .failing reason)
  | .cancelling => (c.act (Act.cancel job.task)).goTo .gone
  | .failing reason =>
    (c.act (Act.complete job.task (.error (.element e.engine.name reason)))).goTo .gone
  | .held | .working | .gone => c

/-- The course after an event; one that cannot happen changes nothing. -/
def step (e : EngineElement υ) (job : Job) (c : Course υ) : JobEvent υ → Course υ
  | .holder event => ((c.stopping.step? event).map c.withStopping).getD c
  | .strike task => c.act (Act.cancel task)
  | .elsewhere next => { c with scene := c.scene.amend next }
  | .run =>
    match c.stage with
    | .held => c.goTo .begun
    | _ => c
  | .drop =>
    match c.stage with
    | .held => c.goTo (.leaving EngineElement.droppedUnrun)
    | _ => c
  | .returns ended =>
    match c.stage with
    | .working => c.goTo (.ofEnd ended)
    | _ => c
  | .own => c.goOn e job

/-- The course after events, one after the other. -/
def after (e : EngineElement υ) (job : Job) (c : Course υ) (events : List (JobEvent υ)) : Course υ :=
  events.foldl (step e job) c

end Course

end EvidenceFlow
