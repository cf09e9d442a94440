import EvidenceFlow.Duration

/-!
# Faults

What can go wrong, from wrong settings to failed reads of a property. A fault about settings is fatal:
it ends the run of a pipeline at once. All other faults of elements are recorded on the flow as
incidents and the run goes on.
-/

namespace EvidenceFlow

/-- A fault in the settings of a pipeline or of one of its parts. -/
inductive SettingFault where
  /-- A field that must be given is not. -/
  | missing (field : String)
  /-- A field has a value that is not allowed. -/
  | invalid (field value reason : String)
  /-- An element stands before one that it needs. -/
  | missingPredecessor (element required : String)
  /-- No store is registered under the name. -/
  | unknownBuilder (name : String)
deriving DecidableEq, Repr

/-- The failure of a loader. -/
structure LoadFault where
  /-- The key that was to be loaded. -/
  key : String
  /-- Why there is no value for it. -/
  reason : String
deriving DecidableEq, Repr

/-- Why a read found no value for a property. -/
inductive MissingReason where
  /-- The property is declared and available, and was not written. -/
  | notInResults
  /-- The property is declared and was excluded from what the element writes. -/
  | excluded
  /-- Nobody declares the property. -/
  | unknown
deriving DecidableEq, Repr

mutual

/-- A failed read of a property whose engine runs apart from the flow. -/
inductive LazyFault where
  /-- The engine did not finish within the limit. -/
  | timeout (property engines : String) (limit : Duration)
  /-- The engine's task was cancelled. -/
  | cancelled (property engines : String)
  /-- The engine failed. -/
  | failed (property engine : String) (cause : Fault)
  /-- Several engines did not deliver. -/
  | aggregate (property engines : String) (causes : List LazyFault)

/-- A fault of any kind. -/
inductive Fault where
  /-- Wrong settings. -/
  | setting (fault : SettingFault)
  /-- A failed load. -/
  | load (fault : LoadFault)
  /-- A failed read of a lazily computed property. -/
  | lazyRead (fault : LazyFault)
  /-- An element or an engine failed. -/
  | element (element reason : String)
  /-- A property has no value. -/
  | propertyMissing (element property : String) (reason : MissingReason)
  /-- A property has a value of another type. -/
  | propertyType (property expected reason : String)
  /-- What is stored under a key is of another type. -/
  | dataMismatch (key : String)
  /-- Nothing is stored under a key. -/
  | dataMissing (key : String)
  /-- A property cannot be traced to one element. -/
  | metadata (reason : String)
  /-- The pipeline takes no more work. -/
  | closed
  /-- The flow has been processed before. -/
  | alreadyProcessed
  /-- The flow has not been processed yet. -/
  | notProcessed
  /-- Work could not be handed over. -/
  | executor (reason : String)
  /-- What went wrong in the course of one flow. -/
  | aggregate (incidents : List Incident)

/-- A fault recorded against the element that raised it. -/
inductive Incident where
  /-- The element's key and what it raised. -/
  | mk (element : String) (fault : Fault)

end

instance : Inhabited Fault := ⟨.closed⟩

instance : Inhabited LazyFault := ⟨.cancelled "" ""⟩

namespace SettingFault

/-- The wording of a fault in the settings. -/
def message : SettingFault → String
  | missing field => s!"Missing required configuration field: {field}"
  | invalid field value reason => s!"Invalid value for {field}: {value} - {reason}"
  | missingPredecessor element required =>
    s!"Element '{element}' requires '{required}' to be added to the pipeline before it"
  | unknownBuilder name => s!"No cache builder registered under the name '{name}'"

end SettingFault

namespace LoadFault

/-- The wording of a failed load. -/
def message (fault : LoadFault) : String :=
  s!"Loader failed for key {fault.key}: {fault.reason}"

end LoadFault

namespace MissingReason

/-- The wording of the reason. -/
def message : MissingReason → String
  | notInResults => "The element did not populate it for this evidence."
  | excluded => "This is because the property has been excluded when configuring the engine."
  | unknown =>
    "The reason for this is unknown. Please check that the aspect and property name are correct."

end MissingReason

mutual

/-- The wording of a failed lazy read. -/
def LazyFault.message : LazyFault → String
  | .timeout property engines limit =>
    s!"Failed to retrieve property '{property}' because the processing for engine(s) {engines} " ++
      s!"took longer than the specified timeout of {limit.shown}"
  | .cancelled property engines =>
    s!"Failed to retrieve property '{property}' because the processing for engine(s) {engines} " ++
      "was cancelled"
  | .failed property engine cause =>
    s!"Failed to retrieve property '{property}' because processing threw an exception " ++
      s!"in engine {engine}: " ++ cause.message
  | .aggregate property engines causes =>
    s!"Failed to retrieve property '{property}' because processing threw {causes.length} errors " ++
      s!"in engine(s) {engines}"

/-- The wording of a fault. -/
def Fault.message : Fault → String
  | .setting fault => "Config error: " ++ fault.message
  | .load fault => "Cache error: " ++ fault.message
  | .lazyRead fault => "Lazy load error: " ++ fault.message
  | .element element reason => s!"Element '{element}' failed: {reason}"
  | .propertyMissing element property reason =>
    s!"Property '{property}' is not present in the results of '{element}'. {reason.message}"
  | .propertyType property expected reason =>
    s!"Property '{property}' could not be read as {expected}: {reason}"
  | .dataMismatch key => s!"Element data '{key}' is not of the requested type"
  | .dataMissing key => s!"Element data '{key}' has not been added to the flow data"
  | .metadata reason => s!"Pipeline metadata error: {reason}"
  | .closed => "Pipeline is closed"
  | .alreadyProcessed => "Flow data has already been processed"
  | .notProcessed => "Flow data has not yet been processed"
  | .executor reason => s!"Executor error: {reason}"
  | .aggregate incidents => s!"{incidents.length} error(s) occurred processing evidence"

end

namespace LazyFault

/-- Whether the read failed for time. -/
def isTimeout : LazyFault → Bool
  | timeout .. => true
  | _ => false

/-- Whether the read failed because of a cancelled task. -/
def isCancelled : LazyFault → Bool
  | cancelled .. => true
  | _ => false

/-- The engines that the fault names. -/
def engines : LazyFault → String
  | timeout _ engines _ => engines
  | cancelled _ engines => engines
  | failed _ engine _ => engine
  | aggregate _ engines _ => engines

mutual

/-- Every fault underneath, out of any aggregate. -/
def leaves : LazyFault → List LazyFault
  | aggregate _ _ causes => leavesOfAll causes
  | leaf => [leaf]

/-- Every fault underneath those in the list, in order. -/
def leavesOfAll : List LazyFault → List LazyFault
  | [] => []
  | fault :: rest => fault.leaves ++ leavesOfAll rest

end

end LazyFault

namespace Incident

/-- The key of the element that raised the fault. -/
def element : Incident → String
  | mk element _ => element

/-- The fault that was raised. -/
def fault : Incident → Fault
  | mk _ fault => fault

/-- The wording of an incident. -/
def message (incident : Incident) : String :=
  incident.element ++ ": " ++ incident.fault.message

end Incident

namespace Fault

/-- Whether the fault ends the run of a pipeline. -/
def isFatal : Fault → Bool
  | setting _ => true
  | _ => false

end Fault

end EvidenceFlow
