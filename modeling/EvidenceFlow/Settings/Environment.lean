import EvidenceFlow.Settings.LazyLoading
import EvidenceFlow.Settings.Pipeline
import EvidenceFlow.Settings.Tracker
import EvidenceFlow.Json.Basic
import EvidenceFlow.Text.Integer
import EvidenceFlow.Text.LowerCase

/-!
# Settings from the environment

Named texts of the environment set what they can be read as; a name that is not there, or whose text
cannot be read, leaves the default.
-/

namespace EvidenceFlow

open Text

/-- The named texts of the environment. -/
abbrev Environment := List (String × String)

namespace Environment

/-- The truth value that a text gives, blanks and case aside. -/
def flagOfText? (text : String) : Option Bool :=
  let word := lowercase (trim text)
  if word = "true" ∨ word = "1" then some true
  else if word = "false" ∨ word = "0" then some false
  else none

/-- The truth value of a name. -/
def flag (env : Environment) (name : String) (default : Bool) : Bool :=
  ((env.lookup name).bind flagOfText?).getD default

/-- The natural number of at most 64 bits of a name, blanks aside. -/
def natural (env : Environment) (name : String) (default : Nat) : Nat :=
  ((env.lookup name).bind fun text => parseNat? Json.maxUnsigned (trim text)).getD default

/-- The signed number of at most 32 bits of a name, blanks aside. -/
def integer (env : Environment) (name : String) (default : Int) : Int :=
  ((env.lookup name).bind fun text => parseInt? (-2147483648) 2147483647 (trim text)).getD default

end Environment

/-- The settings of a pipeline. The size of groups must stand without blanks. -/
def PipelineSettings.ofEnvironment (env : Environment) : PipelineSettings :=
  let defaults : PipelineSettings := {}
  { suppressIncidents := env.flag "PIPELINE_SUPPRESS_PROCESS_ERRORS" defaults.suppressIncidents
    closeElements := env.flag "PIPELINE_AUTO_CLOSE_ELEMENTS" defaults.closeElements
    maxParallel :=
      ((env.lookup "PIPELINE_MAX_PARALLEL_ELEMENTS").bind (parseNat? Json.maxUnsigned)).getD
        defaults.maxParallel }

/-- The settings of a result store. The name of its builder is taken as it stands. -/
def CacheSettings.ofEnvironment (env : Environment) : CacheSettings :=
  let defaults : CacheSettings := {}
  let concurrency :=
    ((env.lookup "PIPELINE_CACHE_CONCURRENCY").bind fun text =>
      parseNat? Json.maxUnsigned (trim text)).map Concurrency.exactly
  { builder := (env.lookup "PIPELINE_CACHE_BUILDER").getD defaults.builder
    size := env.natural "PIPELINE_CACHE_SIZE" defaults.size
    concurrency := concurrency.getD defaults.concurrency
    updateExisting := env.flag "PIPELINE_CACHE_UPDATE_EXISTING" defaults.updateExisting }

/-- The settings of a lazy engine. -/
def LazySettings.ofEnvironment (env : Environment) : LazySettings :=
  let defaults : LazySettings := {}
  { propertyTimeout :=
      .ofMillis (env.natural "PIPELINE_LAZY_TIMEOUT_MS" defaults.propertyTimeout.millis) }

/-- The settings of an interval tracker. -/
def TrackerSettings.ofEnvironment (env : Environment) : TrackerSettings :=
  let defaults : TrackerSettings := {}
  { cache := .ofEnvironment env
    interval := .ofMillis (env.natural "PIPELINE_TRACKER_INTERVAL_MS" defaults.interval.millis) }

end EvidenceFlow
