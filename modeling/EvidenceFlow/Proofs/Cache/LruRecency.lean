import Mathlib.Logic.Function.Basic
import EvidenceFlow.Cache.Command
import EvidenceFlow.Proofs.Cache.Recency
import EvidenceFlow.Proofs.Cache.SegmentRecency

/-!
# Segmented stores are recency lists side by side

Each segment of a store stands for a recency list of its own, which holds keys of that segment only.
What a store does with a key it does with the list of the key's segment, and no other list changes.
-/

namespace EvidenceFlow.Lru

variable {κ ν : Type}

/-- Counting an eviction leaves the segments alone. -/
@[simp] theorem segments_countEviction (c : Lru κ ν) (done : Segment.Insertion ν) :
    (c.countEviction done).segments = c.segments := by
  rcases done with (_ | _) | _ | _ <;> rfl

/-- Counting an eviction leaves the placement alone. -/
@[simp] theorem place_countEviction (c : Lru κ ν) (done : Segment.Insertion ν) :
    (c.countEviction done).place = c.place := by
  rcases done with (_ | _) | _ | _ <;> rfl

/-- Counting an eviction leaves the mode alone. -/
@[simp] theorem updateExisting_countEviction (c : Lru κ ν) (done : Segment.Insertion ν) :
    (c.countEviction done).updateExisting = c.updateExisting := by
  rcases done with (_ | _) | _ | _ <;> rfl

section Inserted

variable [DecidableEq κ]

/-- The store with a value put under a key; `update` says whether one that is there is replaced. -/
def inserted (c : Lru κ ν) (key : κ) (value : ν) (update : Bool) : Lru κ ν :=
  (c.setSegment key ((c.segment key).insert key value update).2).countEviction
    ((c.segment key).insert key value update).1

/-- Putting a value replaces what is there as the settings say. -/
theorem put_eq_inserted (c : Lru κ ν) (key : κ) (value : ν) :
    c.put key value = c.inserted key value c.updateExisting := rfl

/-- Putting a value under a new key never replaces what is there. -/
theorem putIfAbsent_snd (c : Lru κ ν) (key : κ) (value : ν) :
    (c.putIfAbsent key value).2 = c.inserted key value false := by
  rw [putIfAbsent, inserted]
  rcases (c.segment key).insert key value false with ⟨_ | _ | _, segment⟩ <;> rfl

/-- No use changes how many segments there are, where keys go or whether values are replaced. -/
theorem answer_shape (command : StoreCommand κ ν) (c : Lru κ ν) :
    (c.answer command).2.segments.size = c.segments.size ∧
      (c.answer command).2.place = c.place ∧
      (c.answer command).2.updateExisting = c.updateExisting := by
  cases command with
  | get key =>
    simp only [answer, Lru.get]
    rcases (c.segment key).get key with ⟨_ | value, segment⟩ <;> simp [setSegment]
  | put key value => simp [answer, put_eq_inserted, inserted, setSegment]
  | putIfAbsent key value => simp [answer, putIfAbsent_snd, inserted, setSegment]
  | remove key => simp [answer, Lru.remove, setSegment]
  | reset => simp [answer, Lru.reset]
  | contains key => exact ⟨rfl, rfl, rfl⟩
  | size => exact ⟨rfl, rfl, rfl⟩
  | keys i => exact ⟨rfl, rfl, rfl⟩

end Inserted

/-- Each segment stands for the list of its number. -/
structure Holds (c : Lru κ ν) (lists : Nat → Recency κ ν) : Prop where
  /-- A segment stands for its list. -/
  segment : ∀ i (h : i < c.segments.size), c.segments[i].Holds (lists i)
  /-- Each list has room. -/
  room : ∀ i, i < c.segments.size → 0 < (lists i).capacity
  /-- A list holds only keys that are placed in its segment. -/
  placed : ∀ i, i < c.segments.size → ∀ key ∈ (lists i).keys, c.place key % c.segments.size = i

namespace Holds

variable {c : Lru κ ν} {lists : Nat → Recency κ ν}

/-- The segment of a key stands for the list of the key. -/
theorem segment_of (h : c.Holds lists) (key : κ) :
    (c.segment key).Holds (lists (c.segmentOf key)) :=
  h.segment _ (c.segmentOf key).isLt

/-- The segment of a key has room for an entry. -/
theorem room_of (h : c.Holds lists) (key : κ) : 0 < (lists (c.segmentOf key)).capacity :=
  h.room _ (c.segmentOf key).isLt

/-- Counts do not matter to what is held. -/
theorem of_segments_eq (h : c.Holds lists) {d : Lru κ ν} (hplace : d.place = c.place)
    (hsegments : d.segments = c.segments) : d.Holds lists := by
  obtain ⟨place, capacity, update, segments, hpos, hits, misses, evictions⟩ := d
  obtain rfl : place = c.place := hplace
  obtain rfl : segments = c.segments := hsegments
  exact ⟨h.segment, h.room, h.placed⟩

/-- A segment that is set stands for a list of its own from then on. -/
theorem setSegment (h : c.Holds lists) (key : κ) {segment : Segment κ ν} {r : Recency κ ν}
    (hsegment : segment.Holds r) (hroom : 0 < r.capacity)
    (hkeys : ∀ other ∈ r.keys, other = key ∨ other ∈ (lists (c.segmentOf key)).keys) :
    (c.setSegment key segment).Holds (Function.update lists (c.segmentOf key) r) := by
  refine ⟨?_, ?_, ?_⟩
  · intro i hi
    simp only [Lru.setSegment] at hi ⊢
    by_cases heq : i = c.segmentOf key
    · subst heq
      simpa using hsegment
    · rw [Function.update_of_ne heq, Array.getElem_set_ne _ _ (Ne.symm heq)]
      exact h.segment i (by simpa using hi)
  · intro i hi
    by_cases heq : i = c.segmentOf key
    · rwa [heq, Function.update_self]
    · rw [Function.update_of_ne heq]
      exact h.room i (by simpa using hi)
  · intro i hi other hother
    rw [size_segments_setSegment] at hi ⊢
    by_cases heq : i = c.segmentOf key
    · rw [heq, Function.update_self] at hother
      rcases hkeys other hother with rfl | hmem
      · exact heq.symm
      · rw [heq]
        exact h.placed _ (c.segmentOf key).isLt other hmem
    · rw [Function.update_of_ne heq] at hother
      exact h.placed i hi other hother

/-- There are no more keys in a segment than those of its list. -/
theorem segmentKeys_eq (h : c.Holds lists) (i : Nat) :
    c.segmentKeys i = if i < c.segments.size then (lists i).keys else [] := by
  rw [segmentKeys]
  split
  · next hi =>
    obtain ⟨slots, hslots⟩ := h.segment i hi
    rw [Array.getElem?_eq_getElem hi, Option.map_some, Option.getD_some, hslots.keys_eq]
  · next hi => rw [Array.getElem?_eq_none (by omega), Option.map_none, Option.getD_none]

section Keyed

variable [DecidableEq κ]

/-- What is held under a key is what the list of the key holds under it. -/
theorem peek?_eq (h : c.Holds lists) (key : κ) :
    c.peek? key = (lists (c.segmentOf key)).peek? key := by
  obtain ⟨slots, hslots⟩ := h.segment_of key
  exact hslots.peek?_eq key

/-- A key is resident if its list holds it. -/
theorem contains_eq (h : c.Holds lists) (key : κ) :
    c.contains key = (lists (c.segmentOf key)).contains key := by
  rw [Recency.contains, ← h.peek?_eq, Lru.contains, Lru.peek?, Segment.contains, Segment.peek?]
  cases hslot : (c.segment key).slot? key with
  | none => rfl
  | some slot =>
    obtain ⟨slots, hslots⟩ := h.segment_of key
    obtain ⟨value, hvalue⟩ := hslots.slot?_eq_some_iff.mp hslot
    have hnode := congrArg Option.isSome hvalue
    simpa [Segment.content?] using hnode.symm

/-- A look-up is one of the list of the key. -/
theorem get (h : c.Holds lists) (key : κ) :
    (c.get key).1 = (lists (c.segmentOf key)).peek? key ∧
      (c.get key).2.Holds
        (Function.update lists (c.segmentOf key) ((lists (c.segmentOf key)).get key).2) := by
  obtain ⟨hfound, hsegment⟩ := (h.segment_of key).get key
  have hset := h.setSegment key hsegment (by simpa using h.room_of key)
    fun other hother => Or.inr (Recency.mem_keys_get hother)
  rw [Recency.get_fst] at hfound
  rw [Lru.get, ← hfound]
  rcases hget : (c.segment key).get key with ⟨_ | value, segment⟩ <;> rw [hget] at hset
  · exact ⟨rfl, hset.of_segments_eq rfl rfl⟩
  · exact ⟨rfl, hset.of_segments_eq rfl rfl⟩

/-- Putting a value is putting it into the list of the key. -/
theorem inserted (h : c.Holds lists) (key : κ) (value : ν) (update : Bool) :
    (c.inserted key value update).Holds (Function.update lists (c.segmentOf key)
      ((lists (c.segmentOf key)).put update key value)) := by
  obtain ⟨-, hsegment⟩ := (h.segment_of key).insert (h.room_of key) key value update
  have hset := h.setSegment key hsegment (by simpa using h.room_of key)
    fun other hother => Recency.mem_keys_put hother
  exact hset.of_segments_eq (place_countEviction _ _) (segments_countEviction _ _)

/-- Putting a value under a new key gives back what the list of the key then holds. -/
theorem putIfAbsent_fst (h : c.Holds lists) (key : κ) (value : ν) :
    (c.putIfAbsent key value).1 = ((lists (c.segmentOf key)).putIfAbsent key value).1 := by
  obtain ⟨hdone, -⟩ := (h.segment_of key).insert (h.room_of key) key value false
  rw [Recency.putIfAbsent_fst, Lru.putIfAbsent]
  rcases hinsert : (c.segment key).insert key value false with ⟨done, segment⟩
  rw [hinsert] at hdone
  cases hpeek : (lists (c.segmentOf key)).peek? key with
  | none =>
    rw [hpeek] at hdone
    obtain rfl : done = .added _ := hdone
    rfl
  | some held =>
    rw [hpeek] at hdone
    obtain rfl : done = .kept held := hdone
    rfl

/-- Removing a key is removing it from its list. -/
theorem remove (h : c.Holds lists) (key : κ) :
    (c.remove key).1 = (lists (c.segmentOf key)).peek? key ∧
      (c.remove key).2.Holds (Function.update lists (c.segmentOf key)
        ((lists (c.segmentOf key)).remove key).2) := by
  obtain ⟨hfound, hsegment⟩ := (h.segment_of key).remove key
  exact ⟨hfound, h.setSegment key hsegment (h.room_of key)
    fun other hother => Or.inr (Recency.mem_keys_remove hother)⟩

/-- Dropping everything drops the entries of every list. -/
theorem reset (h : c.Holds lists) : c.reset.Holds fun i => (lists i).cleared := by
  refine ⟨?_, ?_, ?_⟩
  · intro i hi
    simp only [Lru.reset, Array.getElem_map]
    exact (h.segment i (by simpa [Lru.reset] using hi)).cleared
  · intro i hi
    exact h.room i (by simpa [Lru.reset] using hi)
  · intro i _ key hkey
    simp [Recency.cleared, Recency.empty, Recency.keys] at hkey

end Keyed

end Holds

end EvidenceFlow.Lru
