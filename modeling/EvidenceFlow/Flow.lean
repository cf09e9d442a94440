import EvidenceFlow.Aspect
import EvidenceFlow.Evidence

/-!
# Flows

A flow carries one request through a pipeline: the evidence that goes in, the data that elements leave
under their keys, the incidents, and the tasks that are cancelled when the flow is stopped. Evidence is
frozen once processing has begun, and processing begins once at most.

Result objects stay in the flow once made, also when their key is given to other data, because engines
that run apart from the flow keep writing into them; they are known by their places.
-/

namespace EvidenceFlow

open Text

/-- The place of a result object in its flow. -/
abbrev ObjectId := Nat

/-- What a flow holds under a key. -/
inductive Datum where
  /-- A text. -/
  | text (s : String)
  /-- A natural number. -/
  | number (n : Nat)
  /-- A value. -/
  | json (value : Json)
  /-- A result object. -/
  | object (id : ObjectId)
deriving Inhabited

namespace Datum

/-- The type of a datum. -/
inductive Kind where
  /-- Texts. -/
  | text
  /-- Natural numbers. -/
  | number
  /-- Values. -/
  | json
  /-- Result objects. -/
  | object
deriving DecidableEq, Repr

/-- The type of the datum. -/
def kind : Datum → Kind
  | text _ => .text
  | number _ => .number
  | json _ => .json
  | object _ => .object

end Datum

/-- One request on its way through a pipeline. -/
structure Flow where
  /-- The number of the flow. -/
  id : Nat := 0
  /-- The evidence. -/
  evidence : Evidence := {}
  /-- The data of elements, each key once. -/
  data : Table String Datum := []
  /-- The result objects made so far. -/
  objects : List Aspect := []
  /-- What went wrong so far. -/
  incidents : List Incident := []
  /-- The tasks to cancel when the flow is stopped. -/
  hooks : List TaskId := []
  /-- Whether the flow has been stopped. -/
  stopped : Bool := false
  /-- Whether processing has begun. -/
  processed : Bool := false
deriving Inhabited

namespace Flow

/-- Adds evidence, unless processing has begun. -/
def addEvidence (flow : Flow) (key : String) (value : Json) : Except Fault Flow :=
  if flow.processed then .error .alreadyProcessed
  else .ok { flow with evidence := flow.evidence.add key value }

/-- Adds all of other evidence, unless there is some and processing has begun. -/
def addAllEvidence (flow : Flow) (evidence : Evidence) : Except Fault Flow :=
  evidence.entries.foldlM (fun flow entry => flow.addEvidence entry.key entry.value) flow

/-- Begins the processing, which can be done once. -/
def begin (flow : Flow) : Except Fault Flow :=
  if flow.processed then .error .alreadyProcessed else .ok { flow with processed := true }

/-- Marks the flow as stopped. -/
def raiseStop (flow : Flow) : Flow := { flow with stopped := true }

/-- Takes the tasks that are to be cancelled. -/
def takeHooks (flow : Flow) : List TaskId × Flow := (flow.hooks, { flow with hooks := [] })

/-- Stops the flow and cancels the tasks that wait for that. -/
def stop (flow : Flow) (tasks : Tasks) : Flow × Tasks :=
  let (hooks, flow) := flow.raiseStop.takeHooks
  (flow, tasks.cancelAll hooks)

/-- Lets a task be cancelled when the flow is stopped, at once if it has been. Settled tasks are
forgotten. -/
def onStop (flow : Flow) (tasks : Tasks) (task : TaskId) : Flow × Tasks :=
  if flow.stopped then (flow, tasks.cancel task)
  else ({ flow with hooks := flow.hooks.filter (fun id => !tasks.isDone id) ++ [task] }, tasks)

/-- Records an incident. -/
def addIncident (flow : Flow) (incident : Incident) : Flow :=
  { flow with incidents := flow.incidents ++ [incident] }

/-- What the flow holds under a key. -/
def datum? (flow : Flow) (key : String) : Option Datum := flow.data.lookup key

/-- Puts a datum under a key, whatever is there. -/
def set (flow : Flow) (key : String) (datum : Datum) : Flow :=
  { flow with data := flow.data.put key datum }

/-- What is under a key, after putting a datum there if nothing is; it must be of the datum's type. -/
def getOrAdd (flow : Flow) (key : String) (datum : Datum) : Except Fault Datum × Flow :=
  match flow.datum? key with
  | some held =>
    (if held.kind = datum.kind then .ok held else .error (.dataMismatch key), flow)
  | none => (.ok datum, flow.set key datum)

/-- What is under a key, if it is of the type. -/
def tryGet (flow : Flow) (key : String) (kind : Datum.Kind) : Option Datum :=
  (flow.datum? key).filter fun datum => datum.kind = kind

/-- What is under a key, once processing has begun. -/
def getByName (flow : Flow) (key : String) : Except Fault Datum :=
  if !flow.processed then .error .notProcessed
  else
    match flow.datum? key with
    | some datum => .ok datum
    | none => .error (.dataMissing key)

/-- What is under a key, once processing has begun; it must be of the type. -/
def get (flow : Flow) (key : String) (kind : Datum.Kind) : Except Fault Datum := do
  let datum ← flow.getByName key
  if datum.kind = kind then return datum else throw (.dataMismatch key)

/-- The keys of data, in ascending order. -/
def keys (flow : Flow) : List String := ascending flow.data.keys

/-- The result object at a place. -/
def object? (flow : Flow) (id : ObjectId) : Option Aspect := flow.objects[id]?

/-- The flow with a result object changed. -/
def modifyObject (flow : Flow) (id : ObjectId) (f : Aspect → Aspect) : Flow :=
  { flow with objects := flow.objects.modify id f }

/-- The result object under a key, made if nothing is there. -/
def objectAt (flow : Flow) (key : String) : Except Fault ObjectId × Flow :=
  match flow.datum? key with
  | some (.object id) => (.ok id, flow)
  | some _ => (.error (.dataMismatch key), flow)
  | none =>
    let id := flow.objects.length
    let made : Aspect := { key := key }
    (.ok id, { flow with objects := flow.objects ++ [made] }.set key (.object id))

/-- The result object under a key, once processing has begun. -/
def getObject (flow : Flow) (key : String) : Except Fault (ObjectId × Aspect) := do
  match ← flow.get key .object with
  | .object id => return (id, (flow.object? id).getD { key := key })
  | _ => throw (.dataMismatch key)

/-- How the flow is shown, by the name of its number. -/
def shown (flow : Flow) (name : String) : String :=
  shownRecord "FlowData"
    [("id", name), ("processed", shownBool flow.processed), ("stopped", shownBool flow.stopped)]

end Flow

end EvidenceFlow
