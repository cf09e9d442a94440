import EvidenceFlow.Fault
import EvidenceFlow.Text.Quoted

/-!
# Settings of lazy engines

How long a read of a property waits for the engine that computes it apart from the flow.
-/

namespace EvidenceFlow

open Text

/-- The settings of a lazy engine. -/
structure LazySettings where
  /-- How long a read waits for the engine. -/
  propertyTimeout : Duration := .ofMillis 1000
  /-- Whether the engine brings an executor of its own. -/
  customExecutor : Bool := false
deriving DecidableEq, Repr, Inhabited

namespace LazySettings

/-- Refuses reads that do not wait at all. -/
def validate (settings : LazySettings) : Except Fault Unit :=
  if settings.propertyTimeout.isZero then
    .error (.setting (.invalid "property_timeout" (toString settings.propertyTimeout.millis)
      "property_timeout must be greater than 0"))
  else .ok ()

/-- How the settings are shown. -/
def shown (settings : LazySettings) : String :=
  shownRecord "LazyLoadingConfiguration"
    [("property_timeout", settings.propertyTimeout.shown),
      ("custom_executor", shownBool settings.customExecutor)]

end LazySettings

end EvidenceFlow
