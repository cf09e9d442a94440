import EvidenceFlow.Cache.Command
import EvidenceFlow.Proofs.Cache.Recency
import EvidenceFlow.Proofs.Cache.SegmentRecency

/-!
# The shape of segments

Links, index and vacant slots of a segment fit together after every run of uses: the links forth lead
from the head through each slot in use to the tail, the links back lead the same way in reverse, the
index names the slot of each key, and the slots that are not in use are those on the stack. Nothing
here mentions the recency list that a segment stands for; that there is one is what keeps the shape.
-/

namespace EvidenceFlow.Segment

variable {κ ν : Type}

/-! ## Walks along links -/

/-- The slots met in at most `fuel` steps from a slot, where each step goes along one link. -/
def walk (s : Segment κ ν) (link : Node κ ν → Option Nat) : Nat → Option Nat → List Nat
  | 0, _ | _, none => []
  | fuel + 1, some slot =>
    match s.node? slot with
    | none => []
    | some node => slot :: s.walk link fuel (link node)

/-- The slots met from the head along the links forth, in as many steps as there are entries. -/
def order (s : Segment κ ν) : List Nat := s.walk Node.next s.size s.head

/-- From any slot of the chain, the links forth lead through the slots behind it. -/
theorem Chained.walk_next {s : Segment κ ν} (front : List Nat) {back : List Nat}
    (h : s.Chained (front ++ back)) {fuel : Nat} (hfuel : back.length ≤ fuel) :
    s.walk Node.next fuel back.head? = back := by
  induction fuel generalizing front back with
  | zero =>
    obtain rfl : back = [] := List.length_eq_zero_iff.mp (by omega)
    rfl
  | succ fuel ih =>
    cases back with
    | nil => rfl
    | cons slot back =>
      obtain ⟨node, hnode, -, hnext⟩ := h.links front slot back rfl
      have hrest := ih (front ++ [slot]) (by simpa using h) (by simpa using hfuel)
      simp only [List.head?_cons, walk, hnode, hnext, hrest]

/-- From any slot of the chain, the links back lead through the slots before it in reverse. -/
theorem Chained.walk_prev {s : Segment κ ν} {front : List Nat} (back : List Nat)
    (h : s.Chained (front ++ back)) {fuel : Nat} (hfuel : front.length ≤ fuel) :
    s.walk Node.prev fuel front.getLast? = front.reverse := by
  induction fuel generalizing front back with
  | zero =>
    obtain rfl : front = [] := List.length_eq_zero_iff.mp (by omega)
    rfl
  | succ fuel ih =>
    rcases List.eq_nil_or_concat front with rfl | ⟨front, slot, rfl⟩
    · rfl
    · rw [List.concat_eq_append] at h hfuel ⊢
      rw [List.append_assoc] at h
      obtain ⟨node, hnode, hprev, -⟩ := h.links front slot back rfl
      have hrest := ih (slot :: back) h (by simpa using hfuel)
      simp only [List.getLast?_append, List.getLast?_singleton, Option.some_or, walk, hnode, hprev,
        hrest, List.reverse_append, List.reverse_singleton, List.singleton_append]

/-- A slot that holds an entry holds a node. -/
theorem isSome_content? (s : Segment κ ν) (slot : Nat) :
    (s.content? slot).isSome = (s.node? slot).isSome := by
  rw [content?, Option.isSome_map]

/-- A slot holds an entry of a key if its node is that of the key. -/
theorem exists_content?_iff (s : Segment κ ν) (slot : Nat) (key : κ) :
    (∃ value, s.content? slot = some (key, value)) ↔
      ∃ node, s.node? slot = some node ∧ node.key = key := by
  constructor
  · rintro ⟨value, hcontent⟩
    obtain ⟨node, hnode, hpair⟩ := Option.map_eq_some_iff.mp hcontent
    exact ⟨node, hnode, (Prod.ext_iff.mp hpair).1⟩
  · rintro ⟨node, hnode, rfl⟩
    exact ⟨node.value, by rw [content?, hnode]; rfl⟩

namespace Represents

variable {s : Segment κ ν} {slots : List Nat} {r : Recency κ ν}

/-- The chain is as long as there are entries. -/
theorem length_slots (h : s.Represents slots r) : slots.length = s.size :=
  h.length_eq.trans h.size_eq.symm

/-- The links forth lead through the chain. -/
theorem walk_next (h : s.Represents slots r) {fuel : Nat} (hfuel : s.size ≤ fuel) :
    s.walk Node.next fuel s.head = slots := by
  rw [h.chained.head]
  exact Chained.walk_next [] h.chained (by rwa [h.length_slots])

/-- The links back lead through the chain in reverse. -/
theorem walk_prev (h : s.Represents slots r) {fuel : Nat} (hfuel : s.size ≤ fuel) :
    s.walk Node.prev fuel s.tail = slots.reverse := by
  rw [h.chained.tail]
  exact Chained.walk_prev [] (by simpa using h.chained) (by rwa [h.length_slots])

/-- The chain is the order of the slots. -/
theorem order_eq (h : s.Represents slots r) : s.order = slots := h.walk_next (Nat.le_refl _)

/-- As many steps as there are entries suffice to follow the chain. -/
theorem follow_eq (h : s.Represents slots r) {fuel : Nat} (hfuel : s.size ≤ fuel) :
    s.follow fuel s.head = s.chain := by
  refine List.map_injective_iff.mpr (Option.some_injective _) ?_
  rw [h.chained.chain, h.chained.head]
  exact Chained.follow [] h.chained fuel (by rwa [h.length_slots])

/-- The chain goes through the slots in use. -/
theorem mem_slots_iff (h : s.Represents slots r) (slot : Nat) :
    slot ∈ slots ↔ (s.node? slot).isSome := by
  rw [← isSome_content?]
  refine ⟨fun hslot => ?_, h.occupied slot⟩
  obtain ⟨key, value, hcontent⟩ := h.exists_content hslot
  rw [hcontent]
  rfl

/-- The keys met along the chain are those in its slots. -/
theorem keys_eq_map (h : s.Represents slots r) :
    s.keys.map some = slots.map fun slot => (s.node? slot).map (·.key) := by
  have hchain := congrArg (List.map (Option.map Node.key)) h.chained.chain
  rw [List.map_map, List.map_map] at hchain
  rw [Segment.keys, List.map_map]
  exact hchain

end Represents

/-! ## Segments in shape -/

variable [DecidableEq κ]

/-- Links, index and vacant slots fit together. -/
structure InShape (s : Segment κ ν) : Prop where
  /-- The links forth end after as many steps as there are entries. -/
  ends : ∀ fuel, s.size ≤ fuel → s.walk Node.next fuel s.head = s.order
  /-- They lead through as many slots as there are entries. -/
  length_order : s.order.length = s.size
  /-- They lead through no slot twice. -/
  nodup_order : s.order.Nodup
  /-- They lead through the slots in use. -/
  mem_order_iff : ∀ slot, slot ∈ s.order ↔ (s.node? slot).isSome
  /-- They end at the tail. -/
  tail_eq : s.tail = s.order.getLast?
  /-- The links back lead from the tail through the same slots in reverse, and end there. -/
  reverse : ∀ fuel, s.size ≤ fuel → s.walk Node.prev fuel s.tail = s.order.reverse
  /-- The head is missing only if nothing is held. -/
  head_eq_none_iff : s.head = none ↔ s.size = 0
  /-- The tail is missing only if nothing is held. -/
  tail_eq_none_iff : s.tail = none ↔ s.size = 0
  /-- Following the chain for the list of keys ends after as many steps as there are entries. -/
  follow_eq : ∀ fuel, s.size ≤ fuel → s.follow fuel s.head = s.chain
  /-- The list of keys is that of the slots in order. -/
  keys_eq : s.keys.map some = s.order.map fun slot => (s.node? slot).map (·.key)
  /-- No key is listed twice. -/
  nodup_keys : s.keys.Nodup
  /-- The keys that are listed are those of the index. -/
  mem_keys_iff : ∀ key, key ∈ s.keys ↔ key ∈ Table.keys s.index
  /-- No key stands in the index twice. -/
  nodup_index : (Table.keys s.index).Nodup
  /-- The index leads from a key to the slot that holds it, and to no other. -/
  slot?_eq_some_iff : ∀ key slot,
    s.slot? key = some slot ↔ ∃ node, s.node? slot = some node ∧ node.key = key
  /-- The slots on the stack are those not in use. -/
  mem_free_iff : ∀ slot, slot ∈ s.free ↔ slot < s.nodes.size ∧ s.node? slot = none
  /-- No slot is on the stack twice. -/
  nodup_free : s.free.Nodup
  /-- There are no more slots than there is room. -/
  slots_le : s.nodes.size ≤ s.capacity
  /-- There are no more entries than there is room. -/
  size_le : s.size ≤ s.capacity

namespace Represents

variable {s : Segment κ ν} {slots : List Nat} {r : Recency κ ν}

/-- The keys met along the chain are those of the index. -/
theorem mem_keys_iff (h : s.Represents slots r) (key : κ) :
    key ∈ s.keys ↔ key ∈ Table.keys s.index := by
  rw [h.keys_eq, Recency.mem_keys_iff, ← h.peek?_eq, ← Table.lookup_isSome_iff, Segment.peek?]
  change _ ↔ (s.slot? key).isSome
  cases hslot : s.slot? key with
  | none => rfl
  | some slot =>
    obtain ⟨node, hnode, -⟩ := (s.exists_content?_iff slot key).mp (h.slot?_eq_some_iff.mp hslot)
    simp [hnode]

/-- A segment that stands for a list is in shape. -/
theorem inShape (h : s.Represents slots r) : s.InShape where
  ends fuel hfuel := (h.walk_next hfuel).trans h.order_eq.symm
  length_order := by rw [h.order_eq, h.length_slots]
  nodup_order := by rw [h.order_eq]; exact h.chained.nodup
  mem_order_iff slot := by rw [h.order_eq, h.mem_slots_iff]
  tail_eq := by rw [h.order_eq, h.chained.tail]
  reverse fuel hfuel := by rw [h.order_eq, h.walk_prev hfuel]
  head_eq_none_iff := by
    rw [h.chained.head, List.head?_eq_none_iff, ← h.length_slots, List.length_eq_zero_iff]
  tail_eq_none_iff := by
    rw [h.chained.tail, List.getLast?_eq_none_iff, ← h.length_slots, List.length_eq_zero_iff]
  follow_eq _ hfuel := h.follow_eq hfuel
  keys_eq := by rw [h.order_eq, h.keys_eq_map]
  nodup_keys := by rw [h.keys_eq]; exact h.keys_nodup
  mem_keys_iff := h.mem_keys_iff
  nodup_index := h.index_nodup
  slot?_eq_some_iff key slot := by rw [h.slot?_eq_some_iff, exists_content?_iff]
  mem_free_iff slot := by rw [h.vacant, content?, Option.map_eq_none_iff]
  nodup_free := h.free_nodup
  slots_le := h.room
  size_le := by rw [h.size_eq, h.capacity]; exact h.size_le

end Represents

/-! ## Runs -/

/-- The segment after a use; `update` says whether values that are there are replaced. -/
def after (update : Bool) (s : Segment κ ν) : StoreCommand κ ν → Segment κ ν
  | .get key => (s.get key).2
  | .put key value => (s.insert key value update).2
  | .putIfAbsent key value => (s.insert key value false).2
  | .remove key => (s.remove key).2
  | .reset => s.cleared
  | .contains _ | .size | .keys _ => s

/-- A use does to the list what it does to the segment. -/
theorem Holds.after {s : Segment κ ν} {r : Recency κ ν} (h : s.Holds r) (hpos : 0 < r.capacity)
    (update : Bool) (command : StoreCommand κ ν) :
    (s.after update command).Holds (r.answer update command).2 := by
  cases command with
  | get key => exact (h.get key).2
  | put key value => exact (h.insert hpos key value update).2
  | putIfAbsent key value =>
    have hholds := (h.insert hpos key value false).2
    rwa [Recency.put_false] at hholds
  | remove key => exact (h.remove key).2
  | reset => exact h.cleared
  | contains key => exact h
  | size => exact h
  | keys i => exact h

/-- A run of uses leaves a segment that stands for a list with the same room. -/
theorem Holds.foldl_after (update : Bool) (commands : List (StoreCommand κ ν)) {s : Segment κ ν}
    {r : Recency κ ν} (h : s.Holds r) (hpos : 0 < r.capacity) :
    ∃ r', (commands.foldl (Segment.after update) s).Holds r' ∧ r'.capacity = r.capacity := by
  induction commands generalizing s r with
  | nil => exact ⟨r, h, rfl⟩
  | cons command rest ih =>
    have hcapacity := r.capacity_answer update command
    obtain ⟨r', hr', hsame⟩ := ih (h.after hpos update command) (by rwa [hcapacity])
    exact ⟨r', hr', hsame.trans hcapacity⟩

/-- A segment with room is in shape after every run of uses, and keeps its room. -/
theorem inShape_foldl_after {capacity : Nat} (hpos : 0 < capacity) (update : Bool)
    (commands : List (StoreCommand κ ν)) :
    (commands.foldl (after update) (empty capacity)).InShape ∧
      (commands.foldl (after update) (empty capacity)).capacity = capacity := by
  obtain ⟨r, ⟨slots, hr⟩, hcapacity⟩ := (Holds.empty capacity).foldl_after update commands hpos
  exact ⟨hr.inShape, hr.capacity.trans hcapacity⟩

/-- With room for two entries, a third key takes the slot of the first one, and the slot of a key that
is removed lies vacant. -/
theorem inShape_foldl_after_of_two :
    0 < 2 ∧ ∃ s : Segment Nat Nat, s =
        ([.put 1 10, .put 2 20, .put 3 30, .get 2, .remove 3].foldl (after true) (empty 2)) ∧
      s.InShape ∧ s.capacity = 2 ∧ s.order = [1] ∧ s.free = [0] := by
  have hpos : 0 < 2 := by decide
  obtain ⟨hshape, hcapacity⟩ := inShape_foldl_after (κ := Nat) (ν := Nat) hpos true
    [.put 1 10, .put 2 20, .put 3 30, .get 2, .remove 3]
  exact ⟨hpos, _, rfl, hshape, hcapacity, by decide, by decide⟩

end EvidenceFlow.Segment
