import EvidenceFlow.Fault

/-!
# Settings of pipelines

A pipeline is set by what it does with incidents, with its elements when it is closed, and with the
size of its parallel groups.
-/

namespace EvidenceFlow

/-- The settings of a pipeline. -/
structure PipelineSettings where
  /-- Whether incidents stay on the flow only, and are not what processing returns. -/
  suppressIncidents : Bool := false
  /-- Whether the elements are closed with the pipeline. -/
  closeElements : Bool := true
  /-- The greatest number of elements in a parallel group. -/
  maxParallel : Nat := 64
deriving DecidableEq, Repr, Inhabited

namespace PipelineSettings

/-- Refuses settings that allow no element in a parallel group. -/
def validate (settings : PipelineSettings) : Except Fault Unit :=
  if settings.maxParallel = 0 then
    .error (.setting (.invalid "max_parallel_elements" "0"
      "max_parallel_elements must be greater than 0"))
  else .ok ()

end PipelineSettings

end EvidenceFlow
