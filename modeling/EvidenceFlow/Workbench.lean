import EvidenceFlow.Blueprint

/-!
# Workbenches

A workbench is the pipeline of a blueprint at work, where flows and tasks go by names. Several names may
stand for one flow; a name that is given to another flow leaves the flow as it is.
-/

namespace EvidenceFlow

/-- The pipeline of a blueprint at work. -/
structure Workbench where
  /-- The pipeline with its flows. -/
  session : Session Journal
  /-- The elements, each at the place of its number. -/
  parts : List Part
  /-- The numbers of flows by name, each name once. -/
  flowNames : Table String Nat := []
  /-- Tasks by name, each name once. -/
  taskNames : Table String TaskId := []

namespace Workbench

variable {α : Type}

/-- The workbench of parts and stages, if a pipeline can be built of them. -/
def ofStages (settings : PipelineSettings) (workshop : Workshop) (stages : List (Stage Journal)) :
    Except Fault Workbench := do
  let pipeline ← Pipeline.build settings stages
  let engines := workshop.parts.filterMap Part.engine?
  return { session := { pipeline, engines, shared := workshop.shared }, parts := workshop.parts }

/-- The flow of a name. -/
def flow? (w : Workbench) (name : String) : Option Flow :=
  (w.flowNames.lookup name).bind w.session.flow?

/-- Gives a flow a name. -/
def nameFlow (w : Workbench) (name : String) (id : Nat) : Workbench :=
  { w with flowNames := w.flowNames.put name id }

/-- Whether no two names stand for one flow. -/
def flowsAreDistinct (w : Workbench) : Bool :=
  (w.flowNames.map (·.2)).eraseDups.length = w.flowNames.length

/-- Does something with the session. -/
def onSession (f : Session Journal → α × Session Journal) (w : Workbench) : α × Workbench :=
  let (value, session) := f w.session
  (value, { w with session })

/-- Makes a flow and gives it a name, unless that fails. -/
def making {ε : Type} (name : String) (f : Session Journal → Except ε Nat × Session Journal)
    (w : Workbench) : Except ε Unit × Workbench :=
  match w.onSession f with
  | (.ok id, w) => (.ok (), w.nameFlow name id)
  | (.error e, w) => (.error e, w)

/-- Lets an act run on a flow. -/
def act (id : Nat) (act : Act Journal α) (w : Workbench) : Except Halt α × Workbench :=
  w.onSession (·.act id act)

/-- Does something with the tasks and their names. -/
def onTasks (f : NamedTasks → α × NamedTasks) (w : Workbench) : α × Workbench :=
  let (value, named) := f { names := w.taskNames, tasks := w.session.shared.tasks }
  let (_, w) := w.onSession fun session => session.onTasks fun _ => ((), named.tasks)
  (value, { w with taskNames := named.names })

/-- The names of the elements called since the last time: as they came, or by number if elements run
side by side. -/
def readNames (w : Workbench) : List String × Workbench :=
  w.onSession fun session =>
    let (names, user) := session.shared.user.read session.pipeline.isConcurrent
    (names, { session with shared := { session.shared with user } })

/-- The decision of a tracker about a flow. -/
def decision (w : Workbench) (number : Nat) (flow : Flow) : Except Fault Json :=
  match w.parts[number]? with
  | some (.tracker e) => e.decision flow w.session.shared.tasks
  | _ => .error (.element "" "not a tracker")

end Workbench

end EvidenceFlow
