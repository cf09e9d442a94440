import EvidenceFlow.Fault
import EvidenceFlow.Text.Quoted

/-!
# Settings of segmented stores

A store is divided into segments that evict on their own. There are never more segments than entries,
and the room is shared out so that the segments differ by at most one entry, the roomier ones first.
-/

namespace EvidenceFlow

/-- The settings of a segmented store. -/
structure LruSettings where
  /-- The number of entries over all segments. -/
  capacity : Nat := 1000
  /-- The number of segments asked for. -/
  concurrency : Nat := 1
  /-- Whether a value put under a key that is there replaces the one held. -/
  updateExisting : Bool := true
deriving DecidableEq, Repr, Inhabited

namespace LruSettings

/-- Refuses a store without room and a store without segments, in this order. -/
def validate (settings : LruSettings) : Except Fault Unit :=
  if settings.capacity = 0 then
    .error (.setting (.invalid "capacity" "0" "capacity must be greater than 0"))
  else if settings.concurrency = 0 then
    .error (.setting (.invalid "concurrency" "0" "concurrency must be greater than 0"))
  else .ok ()

/-- The number of segments: as asked for, but between one and the number of entries. -/
def segmentCount (settings : LruSettings) : Nat :=
  max (min settings.concurrency settings.capacity) 1

/-- The room of one segment. -/
def segmentShare (settings : LruSettings) (i : Nat) : Nat :=
  settings.capacity / settings.segmentCount +
    if i < settings.capacity % settings.segmentCount then 1 else 0

/-- The room of each segment. -/
def segmentCapacities (settings : LruSettings) : List Nat :=
  (List.range settings.segmentCount).map settings.segmentShare

end LruSettings

end EvidenceFlow
