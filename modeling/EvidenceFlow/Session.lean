import EvidenceFlow.Engine
import EvidenceFlow.Pipeline

/-!
# Sessions

A session is a pipeline at work: the flows that were made for it, by number, and what its elements keep
between them. Jobs that wait in the queue are run when told to; one that breaks off lets those behind
it be dropped.
-/

namespace EvidenceFlow

/-- A pipeline at work. -/
structure Session (υ : Type) where
  /-- The pipeline. -/
  pipeline : Pipeline υ
  /-- The elements that are engines. -/
  engines : List (EngineElement υ) := []
  /-- The flows made so far, each at the place of its number. -/
  flows : List Flow := []
  /-- What is kept between flows. -/
  shared : Shared υ

namespace Session

variable {υ α : Type}

/-- Makes a flow, unless the pipeline takes no more work. -/
def create (s : Session υ) : Except Fault Nat × Session υ :=
  if s.pipeline.closed then (.error .closed, s)
  else
    let id := s.flows.length
    (.ok id, { s with flows := s.flows ++ [{ id := id }] })

/-- Makes a flow and fills it with evidence. -/
def createWith (s : Session υ) (evidence : Evidence) : Except Fault Nat × Session υ :=
  match s.create with
  | (.error fault, s) => (.error fault, s)
  | (.ok id, s) =>
    let fill (flow : Flow) : Flow := { flow with evidence := flow.evidence.merge evidence }
    (.ok id, { s with flows := s.flows.modify id fill })

/-- The flow of a number. -/
def flow? (s : Session υ) (id : Nat) : Option Flow := s.flows[id]?

/-- Lets an act run on the flow of a number; one that is not there is taken as new. -/
def act (s : Session υ) (id : Nat) (act : Act υ α) : Except Halt α × Session υ :=
  let (ended, scene) := act.runOn { flow := (s.flow? id).getD { id := id }, shared := s.shared }
  (ended, { s with flows := s.flows.modify id fun _ => scene.flow, shared := scene.shared })

/-- Processes the flow of a number. -/
def process (s : Session υ) (id : Nat) : Except Halt Unit × Session υ :=
  s.act id s.pipeline.process

/-- Makes a flow, fills it with evidence and processes it. -/
def run (s : Session υ) (evidence : Evidence) : Except Halt Nat × Session υ :=
  match s.createWith evidence with
  | (.error fault, s) => (.error (.fault fault), s)
  | (.ok id, s) =>
    let (ended, s) := s.process id
    (ended.map fun () => id, s)

/-- The engine of a number. -/
def engine? (s : Session υ) (number : Nat) : Option (EngineElement υ) :=
  s.engines.find? fun engine => engine.number = number

/-- Lets a job be dropped before it has begun. -/
def dropJob (s : Session υ) (job : Job) : Session υ :=
  match s.engine? job.element with
  | some engine => (s.act job.flow (engine.dropJob job)).2
  | none => s

/-- Lets jobs be dropped, one after the other. -/
def dropJobs (s : Session υ) (jobs : List Job) : Session υ :=
  jobs.foldl dropJob s

/-- Runs one job. -/
def runJob (s : Session υ) (job : Job) : Except Halt Unit × Session υ :=
  match s.engine? job.element with
  | some engine => s.act job.flow (engine.runJob job)
  | none => (.ok (), s)

/-- Runs jobs one after the other. If one breaks off, those behind it are dropped. -/
def runJobs : List Job → Session υ → Except Halt Unit × Session υ
  | [], s => (.ok (), s)
  | job :: rest, s =>
    match s.runJob job with
    | (.ok (), s) => runJobs rest s
    | (.error halt, s) => (.error halt, s.dropJobs rest)

/-- Takes the jobs out of the queue. -/
def takeQueue (s : Session υ) : List Job × Session υ :=
  (s.shared.queue, { s with shared := { s.shared with queue := [] } })

/-- Runs the jobs in the queue. -/
def runQueue (s : Session υ) : Except Halt Unit × Session υ :=
  let (jobs, s) := s.takeQueue
  runJobs jobs s

/-- Drops the jobs in the queue. -/
def dropQueue (s : Session υ) : Session υ :=
  let (jobs, s) := s.takeQueue
  s.dropJobs jobs

/-- Changes the tasks. -/
def onTasks (s : Session υ) (f : Tasks → α × Tasks) : α × Session υ :=
  let (value, tasks) := f s.shared.tasks
  (value, { s with shared := { s.shared with tasks } })

/-- Closes the pipeline. -/
def close (s : Session υ) : Except Fault Unit × Session υ :=
  let (ended, pipeline, shared) := s.pipeline.close s.shared
  (ended, { s with pipeline, shared })

/-- Closes one element. -/
def closeElement (s : Session υ) (element : Element υ) : Except Fault Unit × Session υ :=
  let (ended, shared) := StateT.run (ExceptT.run element.close) s.shared
  (ended, { s with shared })

/-- The one property of a name. -/
def metadataFor (s : Session υ) (name : String) : Except Fault Property × Session υ :=
  let (found, pipeline) := s.pipeline.metadataFor name
  (found, { s with pipeline })

/-- Moves the clock by a number of milliseconds, unless that is too long to be measured, and gives back
by how much it was moved. -/
def advance (s : Session υ) (millis : Nat) : Nat × Session υ :=
  let moved := if IntervalTracker.longest.millis < millis then 0 else millis
  (moved, { s with shared := { s.shared with now := s.shared.now + moved } })

end Session

end EvidenceFlow
