import Mathlib.Data.Finset.Card
import Mathlib.Data.Finset.Dedup
import EvidenceFlow.Proofs.Cache.LruValues
import EvidenceFlow.Proofs.Cache.Segmentation

/-!
# Room for keys

Putting a value pushes an entry out exactly if the key is new and its segment is full, and a segment holds
one entry for each of its keys. So as long as nothing is dropped, a segment is full when as many different
keys of its own have been put there as it has room for.
-/

namespace EvidenceFlow.Lru

variable {κ ν : Type}

/-- Putting a segment back counts no eviction. -/
@[simp] theorem evictions_setSegment (c : Lru κ ν) (key : κ) (segment : Segment κ ν) :
    (c.setSegment key segment).evictions = c.evictions := rfl

/-! ## Shares -/

/-- The entries of a segment never need more room than it has. -/
theorem Holds.size_le_capacity {c : Lru κ ν} {lists : Nat → Recency κ ν} (h : c.Holds lists) {i : Nat}
    (hi : i < c.segments.size) : (lists i).size ≤ (lists i).capacity := by
  obtain ⟨slots, hslots⟩ := h.segment i hi
  exact hslots.size_le

/-- The segment of the key has no room left. -/
def Full (c : Lru κ ν) (key : κ) : Prop :=
  (c.segment key).capacity ≤ (c.entriesOf (c.segmentOf key)).length

instance (c : Lru κ ν) (key : κ) : Decidable (c.Full key) := inferInstanceAs (Decidable (_ ≤ _))

/-- The room of a segment is that of its list. -/
theorem Holds.full_iff {c : Lru κ ν} {lists : Nat → Recency κ ν} (h : c.Holds lists) (key : κ) :
    c.Full key ↔ (lists (c.segmentOf key)).capacity ≤ (lists (c.segmentOf key)).size := by
  obtain ⟨slots, hslots⟩ := h.segment_of key
  rw [Full, hslots.capacity, h.entriesOf_eq (c.segmentOf key).isLt, Recency.size]

/-- The segments stand for lists with shares of the room. -/
def HasShares (c : Lru κ ν) (shares : Nat → Nat) : Prop :=
  ∃ lists, c.Holds lists ∧ ∀ i, (lists i).capacity = shares i

namespace HasShares

variable {c : Lru κ ν} {shares : Nat → Nat}

/-- A fresh store has the shares of its settings. -/
theorem ofSettings (place : κ → Nat) {settings : LruSettings} (h : settings.validate = .ok ()) :
    (Lru.ofSettings place settings : Lru κ ν).HasShares settings.segmentShare :=
  ⟨_, Holds.ofSettings place h, fun _ => rfl⟩

/-- A cache whose segments have their shares is sound. -/
theorem sound (h : c.HasShares shares) : c.Sound := ⟨_, h.choose_spec.1⟩

/-- No use changes how much room a segment has. -/
theorem answer [DecidableEq κ] (h : c.HasShares shares) (command : StoreCommand κ ν) :
    (c.answer command).2.HasShares shares := by
  obtain ⟨lists, hholds, hshares⟩ := h
  refine ⟨_, (hholds.answer command fun _ => rfl).1, fun i => ?_⟩
  split
  · rw [Recency.capacity_answer, hshares]
  · exact hshares i

end HasShares

variable [DecidableEq κ]

/-! ## Keys by segment -/

/-- How many different keys of a list go to a segment. -/
def countIn (segment : κ → Nat) (i : Nat) (keys : List κ) : Nat :=
  (keys.filter fun key => segment key = i).toFinset.card

/-- Fewer keys do not count more. -/
theorem countIn_mono (segment : κ → Nat) (i : Nat) {keys others : List κ} (h : keys ⊆ others) :
    countIn segment i keys ≤ countIn segment i others := by
  refine Finset.card_le_card fun key hkey => ?_
  simp only [List.mem_toFinset, List.mem_filter] at hkey ⊢
  exact ⟨h hkey.1, hkey.2⟩

/-- There are at most as many different keys as keys. -/
theorem countIn_le_length (segment : κ → Nat) (i : Nat) (keys : List κ) :
    countIn segment i keys ≤ keys.length :=
  Nat.le_trans (List.toFinset_card_le _) (List.length_filter_le _ _)

/-- A new key counts in its own segment. -/
theorem countIn_cons_self {segment : κ → Nat} {key : κ} {keys : List κ} (h : key ∉ keys) :
    countIn segment (segment key) (key :: keys) = countIn segment (segment key) keys + 1 := by
  rw [countIn, countIn, List.filter_cons_of_pos (by simp), List.toFinset_cons,
    Finset.card_insert_of_notMem]
  rw [List.mem_toFinset]
  exact fun hmem => h (List.mem_of_mem_filter hmem)

namespace Holds

variable {c : Lru κ ν} {lists : Nat → Recency κ ν}

/-- A segment holds as many entries as different keys of its own are there. -/
theorem size_eq_countIn (h : c.Holds lists) {keys : List κ}
    (hheld : ∀ key, (c.peek? key).isSome = true ↔ key ∈ keys) {i : Nat} (hi : i < c.segments.size) :
    (lists i).size = countIn (fun key => c.place key % c.segments.size) i keys := by
  obtain ⟨slots, hslots⟩ := h.segment i hi
  have hsize : (lists i).size = (lists i).keys.length := (List.length_map _).symm
  rw [hsize, ← List.toFinset_card_of_nodup hslots.keys_nodup, countIn]
  congr 1
  ext key
  simp only [List.mem_toFinset, List.mem_filter, decide_eq_true_eq]
  constructor
  · intro hkey
    have hplaced : c.place key % c.segments.size = i := h.placed i hi key hkey
    have hown : (c.segmentOf key : Nat) = i := hplaced
    rw [← hheld, h.peek?_eq, hown]
    exact ⟨((lists i).mem_keys_iff key).mp hkey, hplaced⟩
  · rintro ⟨hkey, hplaced⟩
    have hown : (c.segmentOf key : Nat) = i := hplaced
    rw [← hheld, h.peek?_eq, hown] at hkey
    exact ((lists i).mem_keys_iff key).mpr hkey

/-- Putting a value pushes an entry out exactly if the key is new and its segment is full. -/
theorem evictions_inserted_eq (h : c.Holds lists) (key : κ) (value : ν) (update : Bool) :
    (c.inserted key value update).evictions = c.evictions +
      if c.peek? key = none ∧ (lists (c.segmentOf key)).capacity ≤ (lists (c.segmentOf key)).size
      then 1 else 0 := by
  obtain ⟨hdone, -⟩ := (h.segment_of key).insert (h.room_of key) key value update
  rw [Lru.inserted, hdone, h.peek?_eq]
  cases (lists (c.segmentOf key)).peek? key with
  | none =>
    by_cases hfull : (lists (c.segmentOf key)).capacity ≤ (lists (c.segmentOf key)).size <;>
      simp [hfull, countEviction]
  | some held => cases update <;> simp [countEviction]

end Holds

namespace HasShares

variable {c : Lru κ ν} {shares : Nat → Nat} {segment : κ → Nat} {keys : List κ}

/-- The keys that are there find room in their segments. -/
theorem countIn_le (h : c.HasShares shares) (hsegment : ∀ key, segment key = c.place key % c.segments.size)
    (hheld : ∀ key, (c.peek? key).isSome = true ↔ key ∈ keys) (i : Nat) :
    countIn segment i keys ≤ shares i := by
  by_cases hi : i < c.segments.size
  · obtain ⟨lists, hholds, hshares⟩ := h
    rw [← hshares, funext hsegment, ← hholds.size_eq_countIn hheld hi]
    exact hholds.size_le_capacity hi
  · have hnone : keys.filter (fun key => segment key = i) = [] := by
      refine List.filter_eq_nil_iff.mpr fun key _ => ?_
      have hlt : segment key < c.segments.size := hsegment key ▸ Nat.mod_lt _ c.segments_pos
      simp only [decide_eq_true_eq]
      omega
    rw [countIn, hnone]
    exact Nat.zero_le _

/-- Putting a value pushes an entry out exactly if the key is new, and as many other keys of its segment
are there as the segment has room for. -/
theorem evictions_put (h : c.HasShares shares)
    (hsegment : ∀ key, segment key = c.place key % c.segments.size)
    (hheld : ∀ key, (c.peek? key).isSome = true ↔ key ∈ keys) (key : κ) (value : ν) :
    (c.put key value).evictions = c.evictions +
      if key ∉ keys ∧ shares (segment key) ≤ countIn segment (segment key) keys then 1 else 0 := by
  obtain ⟨lists, hholds, hshares⟩ := h
  have hown : segment key = c.segmentOf key := hsegment key
  have hsize := hholds.size_eq_countIn hheld (c.segmentOf key).isLt
  rw [← funext hsegment, ← hown] at hsize
  rw [put_eq_inserted, hholds.evictions_inserted_eq, ← hown, hshares, hsize]
  simp only [← hheld, Option.not_isSome_iff_eq_none]

end HasShares

end EvidenceFlow.Lru
