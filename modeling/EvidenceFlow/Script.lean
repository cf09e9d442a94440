import EvidenceFlow.Engine

/-!
# Scripts

Elements and engines that follow a script: a list of actions on the flow and on the result object, the
first failure of which ends the call. A journal counts the calls and keeps the names of those called.
-/

namespace EvidenceFlow

/-- What has been called, and how often. -/
structure Journal where
  /-- The number of calls and of closings of elements. -/
  counts : Table Nat (Nat × Nat) := []
  /-- The numbers and names of the elements called since the journal was last read. -/
  names : List (Nat × String) := []
deriving Inhabited

namespace Journal

/-- The number of calls and of closings of an element. -/
def countsOf (journal : Journal) (number : Nat) : Nat × Nat :=
  (journal.counts.lookup number).getD (0, 0)

/-- Counts a call and gives back its number, from one. -/
def call (journal : Journal) (number : Nat) : Nat × Journal :=
  let (calls, closes) := journal.countsOf number
  (calls + 1, { journal with counts := journal.counts.put number (calls + 1, closes) })

/-- Counts a closing. -/
def close (journal : Journal) (number : Nat) : Journal :=
  let (calls, closes) := journal.countsOf number
  { journal with counts := journal.counts.put number (calls, closes + 1) }

/-- Notes the name of an element that is called. -/
def note (journal : Journal) (number : Nat) (name : String) : Journal :=
  { journal with names := journal.names ++ [(number, name)] }

/-- The names noted since the last time: as they came, or by number and then name. -/
def read (journal : Journal) (byNumber : Bool) : List String × Journal :=
  let before (a b : Nat × String) : Bool := a.1 < b.1 || (a.1 == b.1 && decide (a.2 ≤ b.2))
  let names := if byNumber then journal.names.mergeSort before else journal.names
  (names.map (·.2), { journal with names := [] })

end Journal

/-- One step of a script. -/
inductive Action where
  /-- Puts a datum under a key of the flow. -/
  | setDatum (key : String) (datum : Datum)
  /-- Puts a datum under a key of the flow unless one is there, which must be of the same type. -/
  | getOrAdd (key : String) (datum : Datum)
  /-- Sets a property of the result object. -/
  | setProperty (name : String) (value : Json)
  /-- Copies a value of evidence, which must be there, to a key of the flow. -/
  | copyToDatum (evidence key : String)
  /-- Copies a value of evidence, which must be there, to a property. -/
  | copyToProperty (evidence name : String)
  /-- Sets a property to the number of the call. -/
  | count (name : String)
  /-- Stops the flow. -/
  | stop
  /-- Records an incident. -/
  | addIncident (incident : Incident)
  /-- Adds evidence. -/
  | addEvidence (key : String) (value : Json)
  /-- Asks for the flow to be processed, which is under way. -/
  | process
  /-- Reads the data under a key, which must be there. -/
  | need (key : String)
  /-- Fails. -/
  | fail (fault : Fault)
  /-- Fails if the call has the number. -/
  | failOnCall (call : Nat) (fault : Fault)
  /-- Breaks off. -/
  | panic (message : String)

/-- What a script runs on. -/
structure Script.Call where
  /-- The key of the element. -/
  key : String
  /-- The number of the call, from one. -/
  number : Nat
  /-- The result object, if there is one. -/
  object : Option ObjectId := none

namespace Action

variable {υ : Type}

/-- Sets a property of the result object, if there is one. -/
def setOn (call : Script.Call) (name : String) (value : Json) : Act υ Unit :=
  match call.object with
  | some object => Act.modifyObject object (·.set name value)
  | none => pure ()

/-- A value of evidence, which must be there. -/
def evidence (call : Script.Call) (name : String) : Act υ Json := do
  match (← get).flow.evidence.get? name with
  | some value => return value
  | none => Act.fail (.element call.key ("no " ++ name))

/-- Does one step. -/
def run (call : Script.Call) : Action → Act υ Unit
  | setDatum key datum => Act.onFlow fun flow => ((), flow.set key datum)
  | getOrAdd key datum => do
    discard (Act.ofExcept (← Act.onFlow fun flow => flow.getOrAdd key datum))
  | setProperty name value => setOn call name value
  | copyToDatum name key => do
    let value ← evidence call name
    Act.onFlow fun flow => ((), flow.set key (.json value))
  | copyToProperty name property => do setOn call property (← evidence call name)
  | count name => setOn call name (.int call.number)
  | stop => Act.stop
  | addIncident incident => Act.onFlow fun flow => ((), flow.addIncident incident)
  | addEvidence key value => Act.tryFlow fun flow => flow.addEvidence key value
  | process => Act.tryFlow Flow.begin
  | need key => do discard (Act.ofExcept ((← get).flow.getByName key))
  | fail fault => Act.fail fault
  | failOnCall number fault => if call.number = number then Act.fail fault else pure ()
  | panic message => throw (.panic message)

end Action

/-- What follows a script. -/
structure Script where
  /-- The number by which the element is known. -/
  number : Nat
  /-- The key of the element. -/
  key : String
  /-- The name under which calls are noted. -/
  name : String
  /-- The evidence that it declares to consume. -/
  filter : Filter
  /-- What it declares to write. -/
  properties : List Property := []
  /-- The keys of the elements that must have run before it. -/
  requires : List String := []
  /-- The steps of a call. -/
  actions : List Action := []
  /-- The fault with which it is closed. -/
  closeFault : Option Fault := none

namespace Script

/-- Counts and notes a call, and does the steps. -/
def run (script : Script) (object : Option ObjectId) : Act Journal Unit := do
  let number ← Act.onShared fun shared =>
    let (number, user) := shared.user.call script.number
    (number, { shared with user := user.note script.number script.name })
  script.actions.forM (Action.run { key := script.key, number, object })

/-- Counts a closing, which may fail. -/
def close (script : Script) : Chore Journal Unit := do
  modify fun shared => { shared with user := shared.user.close script.number }
  match script.closeFault with
  | some fault => throw fault
  | none => return

/-- The script as an element. -/
def toElement (script : Script) : Element Journal where
  number := script.number
  key := script.key
  filter := script.filter
  properties := script.properties
  requires := script.requires
  process := script.run none
  close := script.close

/-- The script as an engine. -/
def toEngine (script : Script) : Engine Journal where
  key := script.key
  name := script.name
  filter := script.filter
  properties := script.properties
  requires := script.requires
  run object := script.run (some object)
  close := script.close

end Script

/-- An engine with fixed results, which may fail or break off instead. -/
structure FixedEngine where
  /-- The number by which the element is known. -/
  number : Nat
  /-- The key of its result object. -/
  key : String
  /-- The name of the engine. -/
  name : String
  /-- The names of the evidence that it declares to consume. -/
  evidenceKeys : List String := ["header.user-agent"]
  /-- The properties that it writes. -/
  values : List (String × Json) := []
  /-- The properties that it declares as excluded. -/
  excluded : List String := []
  /-- Why every call fails, if it does. -/
  failure : Option String := none
  /-- Whether every call breaks off. -/
  breaksOff : Bool := false

/-- The evidence of a browser. -/
def browserEvidence (userAgent : String) : Evidence :=
  .ofList [("header.user-agent", .str userAgent), ("header.accept-language", .str "en-GB"),
    ("query.page", .str "1")]

namespace FixedEngine

/-- The length of the user agent in bytes. -/
def userAgentLength (evidence : Evidence) : Nat :=
  ((evidence.getText? "header.user-agent").map String.utf8ByteSize).getD 0

/-- What the engine declares. -/
def properties (e : FixedEngine) : List Property :=
  e.values.map (fun value => { name := value.1, elementKey := e.key }) ++
    e.excluded.map fun name => { name, elementKey := e.key, available := false }

/-- Writes the length of the user agent and the fixed properties, unless the call fails. -/
def run (e : FixedEngine) (object : ObjectId) : Act Journal Unit := do
  discard (Act.onShared fun shared =>
    let (number, user) := shared.user.call e.number
    (number, { shared with user }))
  if e.breaksOff then throw (.panic ("mock engine '" ++ e.name ++ "' panicked"))
  if let some reason := e.failure then Act.fail (.element e.name reason)
  let length := userAgentLength (← get).flow.evidence
  Act.modifyObject object fun aspect =>
    e.values.foldl (fun aspect value => aspect.set value.1 value.2)
      (aspect.set "ua_length" (.int length))

/-- The engine. -/
def toEngine (e : FixedEngine) : Engine Journal where
  key := e.key
  name := e.name
  filter := .whitelist (.ofKeys e.evidenceKeys)
  properties := e.properties
  run := e.run
  close := modify fun shared => { shared with user := shared.user.close e.number }

end FixedEngine

end EvidenceFlow
