import EvidenceFlow.Json.Basic
import EvidenceFlow.Property
import EvidenceFlow.Table
import EvidenceFlow.Task
import EvidenceFlow.Text.LowerCase
import EvidenceFlow.Text.Order

/-!
# Aspects

An aspect is a result object: the properties that one engine or several have derived from evidence.
Properties are told apart in lower case. Declared properties, which explain why a value is missing, are
told apart up to the case of ASCII letters, and the first declaration of a name stands. A read waits for
every task that is registered on the aspect and reports each one that did not succeed.
-/

namespace EvidenceFlow

open Text

/-- A task that reads of an aspect wait for. -/
structure Aspect.Registered where
  /-- The task. -/
  task : TaskId
  /-- How long a read waits for it. -/
  timeout : Duration
deriving DecidableEq, Repr

/-- A result object. -/
structure Aspect where
  /-- The key under which the flow holds it. -/
  key : String
  /-- The values of properties by name in lower case, each name once. -/
  properties : Table String Json := []
  /-- The engines that contributed, each name once. -/
  engines : List String := []
  /-- The declared properties. -/
  declared : List Property := []
  /-- The tasks that reads wait for. -/
  tasks : List Aspect.Registered := []
deriving Inhabited

namespace Aspect

/-- Records that an engine contributed. -/
def addEngine (a : Aspect) (engine : String) : Aspect :=
  if engine ∈ a.engines then a else { a with engines := a.engines ++ [engine] }

/-- The declared property of a name. -/
def declared? (a : Aspect) (name : String) : Option Property :=
  a.declared.find? fun property => eqUpToAsciiCase property.name name

/-- Declares a property unless one of the name is declared. -/
def addProperty (a : Aspect) (property : Property) : Aspect :=
  match a.declared? property.name with
  | some _ => a
  | none => { a with declared := a.declared ++ [property] }

/-- Declares properties one after the other. -/
def addProperties (a : Aspect) (properties : List Property) : Aspect :=
  properties.foldl addProperty a

/-- Why a name has no value, by what is declared. -/
def missingReason (a : Aspect) (name : String) : MissingReason :=
  match a.declared? name with
  | some property => if property.available then .notInResults else .excluded
  | none => .unknown

/-- Sets the value of a property. -/
def set (a : Aspect) (name : String) (value : Json) : Aspect :=
  { a with properties := a.properties.put (lowercase name) value }

/-- The names that have a value, in ascending order. -/
def names (a : Aspect) : List String :=
  ascending a.properties.keys

/-- Lets reads wait for a task. -/
def register (a : Aspect) (task : TaskId) (timeout : Duration) : Aspect :=
  { a with tasks := a.tasks ++ [⟨task, timeout⟩] }

/-- The tasks that reads wait for. -/
def taskIds (a : Aspect) : List TaskId := a.tasks.map (·.task)

/-- What the read of a property reports of one task after waiting for it, if it did not succeed. -/
def taskFault? (tasks : Tasks) (property : String) (registered : Registered) : Option LazyFault :=
  (tasks.get? registered.task).bind fun task =>
    match task.state with
    | .completed => none
    | .pending => some (.timeout property task.engine registered.timeout)
    | .cancelled => some (.cancelled property task.engine)
    | .failed cause => some (.failed property task.engine cause)

/-- What the read of a property reports of all tasks: nothing, the one fault, or all of them. -/
def lazyFault? (property : String) : List LazyFault → Option LazyFault
  | [] => none
  | [fault] => some fault
  | faults => some (.aggregate property (", ".intercalate (faults.map LazyFault.engines)) faults)

/-- Waits for the tasks on behalf of the read of a property. -/
def wait (a : Aspect) (tasks : Tasks) (property : String) : Except Fault Unit :=
  match lazyFault? property (a.tasks.filterMap (taskFault? tasks property)) with
  | none => .ok ()
  | some fault => .error (.lazyRead fault)

/-- The value of a property that has one. -/
def value? (a : Aspect) (name : String) : Option Json :=
  a.properties.lookup (lowercase name)

/-- The value of a property, or why it has none; tasks come first. -/
def get (a : Aspect) (tasks : Tasks) (name : String) : Except Fault Json := do
  a.wait tasks name
  match a.value? name with
  | some value => return value
  | none => throw (.propertyMissing a.key name (a.missingReason name))

/-- Whether a read of the property finds a value. -/
def hasValue (a : Aspect) (tasks : Tasks) (name : String) : Bool :=
  (a.get tasks name).toBool

/-- The aspect without its tasks. -/
def snapshot (a : Aspect) : Aspect := { a with tasks := [] }

/-- Takes over the values, engines and declarations of another aspect; its values win, declarations
that are there stand. -/
def merge (a other : Aspect) : Aspect :=
  let a := { a with
    properties := other.properties.foldl (fun held p => held.put p.1 p.2) a.properties }
  (other.engines.foldl addEngine a).addProperties other.declared

/-- How the aspect is shown. -/
def shown (a : Aspect) : String :=
  shownRecord "AspectData"
    [("element_data_key", quoted a.key), ("engines", shownList (a.engines.map quoted)),
      ("properties", toString a.properties.length), ("declared", toString a.declared.length),
      ("tasks", toString a.tasks.length)]

end Aspect

end EvidenceFlow
