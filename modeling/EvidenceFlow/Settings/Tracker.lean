import EvidenceFlow.Settings.Cache

/-!
# Settings of trackers

An interval tracker is set by its store of sightings, the interval between two sightings that both
count, and what it does with a repeat inside the interval.
-/

namespace EvidenceFlow

/-- The settings of an interval tracker. -/
structure TrackerSettings where
  /-- The store of sightings. -/
  cache : CacheSettings := {}
  /-- The least time between two tracked sightings of one fingerprint. -/
  interval : Duration := .ofMillis 1200000
  /-- Whether sightings in different sessions are told apart. -/
  perSession : Bool := false
  /-- Whether the flow is stopped when a repeat is declined. -/
  stopOnRepeat : Bool := false
deriving DecidableEq, Repr, Inhabited

namespace TrackerSettings

/-- Refuses an interval without length, and then what result stores refuse. -/
def validate (settings : TrackerSettings) (processors : Nat) : Except Fault Unit :=
  if settings.interval.isZero then
    .error (.setting (.invalid "interval" (toString settings.interval.millis)
      "interval must be greater than 0"))
  else settings.cache.validate processors

end TrackerSettings

end EvidenceFlow
