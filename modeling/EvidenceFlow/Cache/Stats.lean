import EvidenceFlow.Decimal.Double

/-!
# Statistics of stores

What a store counts since it was made or last reset, and the rates that follow from it.
-/

namespace EvidenceFlow

/-- The counts of a store. -/
structure CacheStats where
  /-- Look-ups that found a value. -/
  hits : Nat := 0
  /-- Look-ups that found none. -/
  misses : Nat := 0
  /-- Entries now in the store. -/
  entryCount : Nat := 0
  /-- Entries dropped for want of room. -/
  evictions : Nat := 0
  /-- Runs of a loader. -/
  loads : Nat := 0
  /-- Runs of a loader that failed. -/
  loadFailures : Nat := 0
deriving DecidableEq, Repr, Inhabited

namespace CacheStats

/-- The number of look-ups. -/
def requests (stats : CacheStats) : Nat := stats.hits + stats.misses

/-- The share of look-ups that found a value; zero before the first. -/
def hitRate (stats : CacheStats) : Float :=
  if stats.requests = 0 then 0 else Float.ofNat stats.hits / Float.ofNat stats.requests

/-- What the hit rate leaves of one; zero before the first look-up. -/
def missRate (stats : CacheStats) : Float :=
  if stats.requests = 0 then 0 else 1 - stats.hitRate

end CacheStats

end EvidenceFlow
