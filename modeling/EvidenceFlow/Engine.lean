import EvidenceFlow.Element
import EvidenceFlow.Settings.LazyLoading

/-!
# Engines

An engine derives properties from evidence and writes them into the result object of its key. As an
element it may come with a store of results and with an executor. A result that is found in the store
is merged into the result object, and the engine does not run. With an executor the engine runs apart
from the flow: the element registers a task on the result object, so that reads wait for it, and hands
over a job. However the job ends, also by being dropped, its task is settled.
-/

namespace EvidenceFlow

open Text

/-- What derives properties from evidence. -/
structure Engine (υ : Type) where
  /-- The key of its result object. -/
  key : String
  /-- The name in faults and among contributors. -/
  name : String
  /-- The evidence that it consumes. -/
  filter : Filter
  /-- What it declares to write. -/
  properties : List Property := []
  /-- The keys of the elements that must have run before it. -/
  requires : List String := []
  /-- Writes properties into a result object of the flow. -/
  run : ObjectId → Act υ Unit
  /-- Gives up what it holds. -/
  close : Chore υ Unit := pure ()

/-- How an engine is run apart from the flow. -/
structure Dispatch where
  /-- How long reads wait for the engine. -/
  timeout : Duration
  /-- What takes over its jobs. -/
  executor : Executor
  /-- Whether the executor is shut down with the engine. -/
  owned : Bool

/-- An engine as an element. -/
structure EngineElement (υ : Type) where
  /-- The number by which the element is known. -/
  number : Nat
  /-- The engine. -/
  engine : Engine υ
  /-- Whether results are kept in a store. -/
  cached : Bool := false
  /-- How it is run apart from the flow, if it is. -/
  dispatch : Option Dispatch := none

/-- How an engine is wished to be run apart from the flow; the executor may fail to be made. -/
structure LazyPlan where
  /-- How long reads wait for the engine. -/
  timeout : Duration
  /-- What takes over its jobs, if it brings something. -/
  executor : Option (Except Fault Executor) := none

namespace Executor

/-- Whether the executor is shut down with the engine that brought it. -/
def isOwned : Executor → Bool
  | default => false
  | _ => true

end Executor

namespace LazyPlan

/-- The plan with its executor made, if the settings are valid. -/
def toDispatch (plan : LazyPlan) : Except Fault Dispatch := do
  LazySettings.validate { propertyTimeout := plan.timeout, customExecutor := plan.executor.isSome }
  match plan.executor with
  | none => return { timeout := plan.timeout, executor := .default, owned := false }
  | some made =>
    let executor ← made
    return { timeout := plan.timeout, executor, owned := executor.isOwned }

end LazyPlan

namespace EngineElement

variable {υ : Type}

/-- Why a job that began did not settle its task. -/
def brokenOff : String := "engine panicked during processing"

/-- Why a job that did not begin did not settle its task. -/
def droppedUnrun : String := "executor dropped the job before it ran"

/-! ## Building -/

/-- The element of an engine, and its store of results if one is wished. -/
def build (builders : Builders) (host : Host) (number : Nat) (engine : Engine υ)
    (cache : Option CacheSettings) (plan : Option LazyPlan) :
    Except Fault (EngineElement υ × Option (KeyedStore Aspect)) := do
  let store ← cache.mapM fun settings => builders.build host settings engine.filter
  let dispatch ← plan.mapM LazyPlan.toDispatch
  return ({ number, engine, cached := store.isSome, dispatch }, store)

/-- What is kept between flows, with the store of results and the pool of the element. -/
def addTo (e : EngineElement υ) (store : Option (KeyedStore Aspect)) (shared : Shared υ) : Shared υ :=
  let shared := match store with
    | some store => { shared with results := shared.results.put e.number store }
    | none => shared
  match e.dispatch.map Dispatch.executor with
  | some (.pool name) => { shared with pools := shared.pools.put e.number { name := name } }
  | _ => shared

/-! ## Results -/

/-- The fingerprint of the flow's evidence, if results are kept. -/
def keyOf (e : EngineElement υ) (flow : Flow) : Option Fingerprint :=
  if e.cached then some (.ofEvidence e.engine.filter flow.evidence) else none

/-- Looks a fingerprint up in the store of results. -/
def lookUp (e : EngineElement υ) (key : Option Fingerprint) : Act υ (Found Aspect) :=
  Act.onShared fun shared =>
    match key, shared.results.lookup e.number with
    | some key, some store =>
      let (found, store) := store.get key
      (found, { shared with results := shared.results.put e.number store })
    | _, _ => (.nothing, shared)

/-- Merges a result into the result object. -/
def install (e : EngineElement υ) (result : Aspect) : Act υ Unit := do
  let object ← Act.objectAt e.engine.key
  Act.modifyObject object (·.merge result)

/-- Keeps the result object, as it stands and without its tasks, under a fingerprint. -/
def keep (e : EngineElement υ) (key : Option Fingerprint) (object : ObjectId) : Act υ Unit :=
  modify fun scene =>
    match key, scene.shared.results.lookup e.number, scene.flow.object? object with
    | some key, some store, some aspect =>
      let store := store.put key aspect.snapshot
      { scene with shared :=
          { scene.shared with results := scene.shared.results.put e.number store } }
    | _, _, _ => scene

/-! ## Jobs -/

/-- Settles the task of a job that ended without doing so. -/
def abandon (job : Job) (engine reason : String) : Act υ Unit := do
  let scene ← get
  if scene.shared.tasks.isDone job.task then return
  if scene.flow.stopped then Act.cancel job.task
  else discard (Act.complete job.task (.error (.element engine reason)))

/-- Lets a job be dropped before it has begun. -/
def dropJob (e : EngineElement υ) (job : Job) : Act υ Unit :=
  abandon job e.engine.name droppedUnrun

/-- Keeps the result of an engine that succeeded, unless its task was cancelled meanwhile, and settles
the task. -/
def finish (e : EngineElement υ) (job : Job) (result : Except Fault Unit) : Act υ Unit := do
  if result.toBool && !(← get).shared.tasks.isCancelled job.task then e.keep job.key job.object
  discard (Act.complete job.task result)

/-- Runs a job: not at all if the flow has been stopped or the task cancelled. Ends broken off if the
engine was. -/
def runJob (e : EngineElement υ) (job : Job) : Act υ Unit := do
  let scene ← get
  if scene.flow.stopped || scene.shared.tasks.isCancelled job.task then Act.cancel job.task
  else
    match ← modifyGet (e.engine.run job.object).runOn with
    | .ok () => e.finish job (.ok ())
    | .error (.fault fault) => e.finish job (.error fault)
    | .error (.panic message) =>
      abandon job e.engine.name brokenOff
      throw (.panic message)

/-- Runs a job apart from the caller, who does not see it broken off. -/
def runApart (e : EngineElement υ) (job : Job) : Act υ Unit := do
  discard (modifyGet (e.runJob job).runOn)

/-- Refuses a job, which is dropped. -/
def refuse (e : EngineElement υ) (job : Job) (fault : Fault) : Act υ Unit := do
  e.dropJob job
  Act.fail fault

/-- Hands a job over to an executor. -/
def hand (e : EngineElement υ) (job : Job) : Executor → Act υ Unit
  | .default => e.runApart job
  | .pool _ => do
    match ((← get).shared.pools.lookup e.number).map Pool.accept with
    | some (.error fault) => e.refuse job fault
    | _ => e.runApart job
  | .threads => do
    match (← get).shared.threads.accept with
    | .error fault => e.refuse job fault
    | .ok threads =>
      Act.onShared fun shared => ((), { shared with threads })
      e.runApart job
  | .manual => Act.onShared fun shared => ((), { shared with queue := shared.queue ++ [job] })
  | .inline => e.runJob job
  | .rejecting fault => e.refuse job fault

/-- Lets the engine run apart from the flow. A task for it is registered on the result object and with
the flow; if the executor refuses the job, the fault is also offered to the task. -/
def runLazily (e : EngineElement υ) (dispatch : Dispatch) (object : ObjectId)
    (key : Option Fingerprint) : Act υ Unit := do
  let task ← Act.newTask e.engine.name
  Act.modifyObject object (·.register task dispatch.timeout)
  Act.onStop task
  let flow := (← get).flow.id
  let job : Job := { task, flow, object, key, element := e.number }
  match ← modifyGet (e.hand job dispatch.executor).runOn with
  | .ok () => return
  | .error (.fault fault) =>
    discard (Act.complete task (.error fault))
    Act.fail fault
  | .error (.panic message) => throw (.panic message)

/-! ## Processing -/

/-- Deals with a flow whose result is not in the store. -/
def compute (e : EngineElement υ) (key : Option Fingerprint) : Act υ Unit := do
  let object ← Act.objectAt e.engine.key
  Act.modifyObject object fun aspect =>
    (aspect.addEngine e.engine.name).addProperties e.engine.properties
  match e.dispatch with
  | some dispatch => e.runLazily dispatch object key
  | none =>
    e.engine.run object
    e.keep key object

/-- Deals with a flow, by a result from the store if there is one. -/
def process (e : EngineElement υ) : Act υ Unit := do
  let key := e.keyOf (← get).flow
  match ← e.lookUp key with
  | .value result => e.install result
  | _ => e.compute key

/-! ## Closing -/

/-- Shuts down an executor that the engine owns. -/
def shutDown (e : EngineElement υ) : Executor → Shared υ → Shared υ
  | .pool _, shared =>
    match shared.pools.lookup e.number with
    | some pool => { shared with pools := shared.pools.put e.number pool.shutDown }
    | none => shared
  | .threads, shared => { shared with threads := shared.threads.shutDown }
  | _, shared => shared

/-- Shuts down the executor, if the engine owns it, and closes the engine. -/
def close (e : EngineElement υ) : Chore υ Unit := do
  match e.dispatch with
  | some dispatch => if dispatch.owned then modify (e.shutDown dispatch.executor)
  | none => pure ()
  e.engine.close

/-- The counts of the store of results. -/
def stats? (e : EngineElement υ) (shared : Shared υ) : Option CacheStats :=
  (shared.results.lookup e.number).map KeyedStore.stats

/-- The engine as an element of a pipeline. -/
def toElement (e : EngineElement υ) : Element υ where
  number := e.number
  key := e.engine.key
  filter := e.engine.filter
  properties := e.engine.properties
  requires := e.engine.requires
  process := e.process
  close := e.close

/-- How the element is shown. -/
def shown (e : EngineElement υ) : String :=
  shownRecord "AspectEngineElement"
    [("engine", quoted e.engine.name), ("cached", shownBool e.cached),
      ("lazy", match e.dispatch with
        | some dispatch => shownTuple "Some" dispatch.timeout.shown
        | none => "None")]

end EngineElement

end EvidenceFlow
