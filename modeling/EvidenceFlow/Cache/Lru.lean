import EvidenceFlow.Cache.Segment
import EvidenceFlow.Cache.Stats
import EvidenceFlow.Settings.Lru

/-!
# Segmented stores

A store places each key in one of its segments, which evict on their own, and counts look-ups and
evictions over all of them. Where a key goes is decided by one fixed number per key.
-/

namespace EvidenceFlow

open Text

/-- A store of segments. -/
structure Lru (κ ν : Type) where
  /-- The number of a key; its remainder by the number of segments is the key's segment. -/
  place : κ → Nat
  /-- The number of entries over all segments. -/
  capacity : Nat
  /-- Whether a value put under a key that is there replaces the one held. -/
  updateExisting : Bool
  /-- The segments. -/
  segments : Array (Segment κ ν)
  /-- There is a segment. -/
  segments_pos : 0 < segments.size
  /-- Look-ups that found a value. -/
  hits : Nat := 0
  /-- Look-ups that found none. -/
  misses : Nat := 0
  /-- Entries dropped for want of room. -/
  evictions : Nat := 0

namespace Lru

variable {κ ν : Type}

/-- A store has at least one segment. -/
theorem segmentCapacities_pos (settings : LruSettings) :
    0 < (settings.segmentCapacities.map (Segment.empty (κ := κ) (ν := ν))).toArray.size := by
  rw [List.size_toArray, List.length_map, LruSettings.segmentCapacities, List.length_map,
    List.length_range]
  exact Nat.le_max_right _ _

/-- The store without entries that the settings describe, checked or not. -/
def ofSettings (place : κ → Nat) (settings : LruSettings) : Lru κ ν where
  place
  capacity := settings.capacity
  updateExisting := settings.updateExisting
  segments := (settings.segmentCapacities.map Segment.empty).toArray
  segments_pos := segmentCapacities_pos settings

/-- The store without entries that the settings describe, if they are valid. -/
def make (place : κ → Nat) (settings : LruSettings) : Except Fault (Lru κ ν) := do
  settings.validate
  return ofSettings place settings

/-- The number of segments. -/
def segmentCount (c : Lru κ ν) : Nat := c.segments.size

/-- The number of the segment of a key. -/
def segmentOf (c : Lru κ ν) (key : κ) : Fin c.segments.size :=
  ⟨c.place key % c.segments.size, Nat.mod_lt _ c.segments_pos⟩

/-- The segment of a key. -/
def segment (c : Lru κ ν) (key : κ) : Segment κ ν := c.segments[c.segmentOf key]

/-- The store with another segment in the place of that of a key. -/
def setSegment (c : Lru κ ν) (key : κ) (segment : Segment κ ν) : Lru κ ν :=
  { c with
    segments := c.segments.set (c.segmentOf key) segment
    segments_pos := by simpa using c.segments_pos }

/-- Putting a segment back adds and removes none. -/
@[simp] theorem size_segments_setSegment (c : Lru κ ν) (key : κ) (segment : Segment κ ν) :
    (c.setSegment key segment).segments.size = c.segments.size := by
  simp [setSegment]

/-- Two keys share a segment if their numbers leave the same remainder. -/
theorem segmentOf_eq_iff (c : Lru κ ν) (key other : κ) :
    c.segmentOf key = c.segmentOf other ↔
      c.place key % c.segments.size = c.place other % c.segments.size :=
  Fin.ext_iff

/-- The segment of a key is the one just set for it. -/
@[simp] theorem segment_setSegment (c : Lru κ ν) (key : κ) (segment : Segment κ ν) :
    (c.setSegment key segment).segment key = segment := by
  simp [Lru.segment, segmentOf, setSegment]

/-- Keys of other segments do not notice a segment that is set. -/
theorem segment_setSegment_of_ne (c : Lru κ ν) {key other : κ} (segment : Segment κ ν)
    (h : c.segmentOf other ≠ c.segmentOf key) :
    (c.setSegment key segment).segment other = c.segment other := by
  have hne : c.place key % c.segments.size ≠ c.place other % c.segments.size :=
    fun he => h (Fin.ext he.symm)
  simpa [Lru.segment, segmentOf, setSegment] using Array.getElem_set_ne _ _ hne

/-- The number of entries. -/
def size (c : Lru κ ν) : Nat :=
  c.segments.toList.foldl (fun entries segment => entries + segment.size) 0

/-- The counts. -/
def stats (c : Lru κ ν) : CacheStats where
  hits := c.hits
  misses := c.misses
  entryCount := c.size
  evictions := c.evictions

/-- The store with all entries dropped and all counts at zero. -/
def reset [DecidableEq κ] (c : Lru κ ν) : Lru κ ν :=
  { c with
    segments := c.segments.map Segment.cleared
    segments_pos := by simpa using c.segments_pos
    hits := 0
    misses := 0
    evictions := 0 }

/-- The keys of a segment from the most to the least recently used; none if there is no such
segment. -/
def segmentKeys (c : Lru κ ν) (i : Nat) : List κ :=
  (c.segments[i]?.map Segment.keys).getD []

/-- The keys of all segments, segment by segment. -/
def keys (c : Lru κ ν) : List κ :=
  c.segments.toList.flatMap Segment.keys

variable [DecidableEq κ]

/-- Whether the key is there; nothing changes. -/
def contains (c : Lru κ ν) (key : κ) : Bool := (c.segment key).contains key

/-- The value of a key; nothing changes. -/
def peek? (c : Lru κ ν) (key : κ) : Option ν := (c.segment key).peek? key

/-- The value of a key, which becomes the one used last in its segment; the look-up is counted. -/
def get (c : Lru κ ν) (key : κ) : Option ν × Lru κ ν :=
  let (found, segment) := (c.segment key).get key
  let c := c.setSegment key segment
  match found with
  | some value => (some value, { c with hits := c.hits + 1 })
  | none => (none, { c with misses := c.misses + 1 })

/-- The store after an insertion that may have pushed out an entry. -/
def countEviction (c : Lru κ ν) : Segment.Insertion ν → Lru κ ν
  | .added true => { c with evictions := c.evictions + 1 }
  | _ => c

/-- Puts a value under a key; one that is there is replaced only if the settings say so. -/
def put (c : Lru κ ν) (key : κ) (value : ν) : Lru κ ν :=
  let (done, segment) := (c.segment key).insert key value c.updateExisting
  (c.setSegment key segment).countEviction done

/-- Puts a value under a key that is not there, and gives back what the key then holds. -/
def putIfAbsent (c : Lru κ ν) (key : κ) (value : ν) : ν × Lru κ ν :=
  let (done, segment) := (c.segment key).insert key value false
  let c := (c.setSegment key segment).countEviction done
  match done with
  | .kept held => (held, c)
  | _ => (value, c)

/-- Removes a key and gives back its value. -/
def remove (c : Lru κ ν) (key : κ) : Option ν × Lru κ ν :=
  let (found, segment) := (c.segment key).remove key
  (found, c.setSegment key segment)

/-- How the store is shown. -/
def shown (c : Lru κ ν) : String :=
  shownRecord "LruPutCache"
    [("capacity", toString c.capacity), ("segments", toString c.segmentCount),
      ("update_existing", shownBool c.updateExisting)]

end Lru

end EvidenceFlow
