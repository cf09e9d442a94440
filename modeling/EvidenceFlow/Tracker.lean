import EvidenceFlow.Cache.Keyed
import EvidenceFlow.Settings.Tracker

/-!
# Trackers

A tracker decides whether a repeated event is dealt with again. It keeps one value for each
fingerprint. The first sighting stores a value and is always tracked; a later one is tracked if the
stored value allows it, and only then is the value replaced, whatever the settings of the store say.
-/

namespace EvidenceFlow

open Text

/-- The policy of a tracker for events of one kind. -/
structure Tracker.Hooks (ε ν : Type) where
  /-- The value stored at the first sighting. -/
  first : ε → ν
  /-- Whether a repeat is tracked. -/
  accepts : ε → ν → Bool
  /-- The value stored at a tracked repeat. -/
  next : ε → ν → ν

/-- One value for each fingerprint sighted. -/
structure Tracker (ν : Type) where
  /-- What of the evidence makes up the fingerprints. -/
  filter : Filter
  /-- The values. -/
  seen : Lru Fingerprint ν

namespace Tracker

variable {ε ν : Type}

/-- The tracker without sightings, if the settings are valid. -/
def make (host : Host) (settings : CacheSettings) (filter : Filter) : Except Fault (Tracker ν) := do
  let settings := { settings with updateExisting := true }
  settings.validate host.processors
  return { filter, seen := ← Lru.make host.place (settings.lru host.processors) }

/-- Decides about a sighting of a fingerprint. -/
def sight {κ : Type} [DecidableEq κ] (hooks : Hooks ε ν) (seen : Lru κ ν) (key : κ) (event : ε) :
    Bool × Lru κ ν :=
  match seen.get key with
  | (none, seen) => (true, seen.put key (hooks.first event))
  | (some stored, seen) =>
    if hooks.accepts event stored then (true, seen.put key (hooks.next event stored))
    else (false, seen)

/-- Decides about a sighting of evidence. -/
def track (t : Tracker ν) (hooks : Hooks ε ν) (evidence : Evidence) (event : ε) :
    Bool × Tracker ν :=
  let (tracked, seen) := sight hooks t.seen (.ofEvidence t.filter evidence) event
  (tracked, { t with seen })

/-- The counts of the store. -/
def stats (t : Tracker ν) : CacheStats := t.seen.stats

/-- The tracker with all sightings forgotten. -/
def reset (t : Tracker ν) : Tracker ν := { t with seen := t.seen.reset }

/-- How the tracker is shown. -/
def shown (t : Tracker ν) : String :=
  shownRecord "DataKeyedTracker" [("cache", (KeyedStore.mk t.filter (.lru t.seen)).shown)]

/-- Tracks a repeat while fewer than `limit` sightings have been tracked; the value counts them. -/
def limitHooks (limit : Nat) : Hooks Unit Nat where
  first _ := 1
  accepts _ count := decide (count < limit)
  next _ count := count + 1

/-- Tracks a repeat when a value has changed since it was tracked last. -/
def changeHooks : Hooks Json Json where
  first value := value
  accepts value stored := !value.same stored
  next value _ := value

/-- Tracks a repeat once `interval` has passed since the sighting that was tracked last. The clock may
go back; it is read in steps of `tick` nanoseconds, which are milliseconds unless said otherwise. -/
def intervalHooks (interval : Duration) (tick : Nat := 1000000) : Hooks Int Int where
  first now := now
  accepts now last := decide ((interval.nanos : Int) ≤ (now - last) * tick)
  next now _ := now

end Tracker

/-- A tracker by the time between sightings. -/
structure IntervalTracker where
  /-- The least time between two tracked sightings. -/
  interval : Duration
  /-- When each fingerprint was tracked last. -/
  tracker : Tracker Int
  /-- The nanoseconds between two readings of the clock that differ by one. -/
  tick : Nat := 1000000

namespace IntervalTracker

/-- The longest interval that can be measured. -/
def longest : Duration := .ofMillis 9223372036854775807

/-- The tracker without sightings, if the settings are valid. -/
def make (host : Host) (settings : TrackerSettings) (filter : Filter) (tick : Nat := 1000000) :
    Except Fault IntervalTracker := do
  settings.validate host.processors
  if longest.nanos < settings.interval.nanos then
    throw (.setting (.invalid "interval" (toString settings.interval.millis)
      "Source duration value is out of range for the target type"))
  let filter := if settings.perSession then .session filter else filter
  return { interval := settings.interval, tracker := ← Tracker.make host settings.cache filter, tick := tick }

/-- Decides about a sighting of evidence at a reading of the clock. -/
def track (t : IntervalTracker) (evidence : Evidence) (now : Int) : Bool × IntervalTracker :=
  let (tracked, tracker) := t.tracker.track (Tracker.intervalHooks t.interval t.tick) evidence now
  (tracked, { t with tracker })

end IntervalTracker

end EvidenceFlow
