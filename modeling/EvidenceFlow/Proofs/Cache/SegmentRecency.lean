import Mathlib.Data.List.Perm.Basic
import Mathlib.Data.Option.Basic
import EvidenceFlow.Cache.Recency
import EvidenceFlow.Proofs.Cache.Chain
import EvidenceFlow.Table

/-!
# Segments are recency lists

A segment stands for a recency list if its chain goes through the entries of the list in order, its
index finds every key of the list in the slot of its entry and nothing else, and the slots that are
not in use are just those on the stack of vacant slots. Each operation of a segment then answers as
that of the recency list does, and again stands for the list that comes out.
-/

namespace EvidenceFlow.Segment

variable {κ ν : Type}

/-- The entries from the most to the least recently used. -/
def entries (s : Segment κ ν) : List (κ × ν) :=
  s.chain.map fun node => (node.key, node.value)

/-- The value of a slot is that of its entry. -/
theorem map_value_of_content? {s : Segment κ ν} {slot : Nat} {key : κ} {value : ν}
    (hcontent : s.content? slot = some (key, value)) : (s.node? slot).map (·.value) = some value := by
  have hvalue := congrArg (Option.map Prod.snd) hcontent
  simpa [content?, Function.comp_def] using hvalue

/-- The segment keeps the entries of the list, in order, in the slots. -/
structure Represents (s : Segment κ ν) (slots : List Nat) (r : Recency κ ν) : Prop where
  /-- Both have the same room. -/
  capacity : s.capacity = r.capacity
  /-- The slots form the chain. -/
  chained : s.Chained slots
  /-- The entries of the list lie in the slots. -/
  entries : slots.map s.content? = r.entries.map some
  /-- Nothing lies in any other slot. -/
  occupied : ∀ slot, (s.content? slot).isSome → slot ∈ slots
  /-- The index finds each key in the slot of its entry. -/
  indexed : ∀ key slot, (key, slot) ∈ s.index ↔ ∃ value, s.content? slot = some (key, value)
  /-- The index has each key once. -/
  index_nodup : (Table.keys s.index).Nodup
  /-- The slots without an entry are those on the stack. -/
  vacant : ∀ slot, slot ∈ s.free ↔ slot < s.nodes.size ∧ s.content? slot = none
  /-- The stack has each slot once. -/
  free_nodup : s.free.Nodup
  /-- There are no more slots than there is room. -/
  room : s.nodes.size ≤ s.capacity

namespace Represents

variable {s : Segment κ ν} {slots : List Nat} {r : Recency κ ν}

/-! ## What a represented list is like -/

/-- Each slot of the chain holds an entry. -/
theorem exists_content (h : s.Represents slots r) {slot : Nat} (hslot : slot ∈ slots) :
    ∃ key value, s.content? slot = some (key, value) := by
  have hmem := List.mem_map_of_mem (f := s.content?) hslot
  rw [h.entries] at hmem
  obtain ⟨⟨key, value⟩, -, hentry⟩ := List.mem_map.mp hmem
  exact ⟨key, value, hentry.symm⟩

/-- The chain and the list are equally long. -/
theorem length_eq (h : s.Represents slots r) : slots.length = r.size := by
  simpa [Recency.size] using congrArg List.length h.entries

/-- The index leads to each slot of the chain once. -/
theorem index_slots_perm (h : s.Represents slots r) : (s.index.map (·.2)).Perm slots := by
  have hslots : (s.index.map (·.2)).Nodup := by
    refine List.Nodup.map_on ?_ (List.Nodup.of_map _ h.index_nodup)
    rintro ⟨key, slot⟩ ha ⟨other, slot'⟩ hb (rfl : slot = slot')
    obtain ⟨v, hv⟩ := (h.indexed key slot).mp ha
    obtain ⟨w, hw⟩ := (h.indexed other slot).mp hb
    rw [hv] at hw
    exact congrArg (·, slot) (Prod.ext_iff.mp (Option.some.inj hw)).1
  refine (List.perm_ext_iff_of_nodup hslots h.chained.nodup).mpr fun slot => ?_
  constructor
  · intro hmem
    obtain ⟨⟨key, _⟩, hindex, rfl⟩ := List.mem_map.mp hmem
    obtain ⟨value, hentry⟩ := (h.indexed key _).mp hindex
    exact h.occupied _ (by rw [hentry]; rfl)
  · intro hslot
    obtain ⟨key, value, hentry⟩ := h.exists_content hslot
    exact List.mem_map.mpr ⟨(key, slot), (h.indexed key slot).mpr ⟨value, hentry⟩, rfl⟩

/-- There are as many keys in the index as in the list. -/
theorem size_eq (h : s.Represents slots r) : s.size = r.size := by
  rw [Segment.size, ← h.length_eq, ← h.index_slots_perm.length_eq, List.length_map]

/-- The list has no more entries than there is room. -/
theorem size_le (h : s.Represents slots r) : r.size ≤ r.capacity := by
  rw [← h.length_eq, ← h.capacity]
  exact Nat.le_trans h.chained.length_le h.room

/-- The entries met along the chain are those of the list. -/
theorem entries_eq (h : s.Represents slots r) : s.entries = r.entries := by
  have hchain := congrArg (List.map (Option.map fun node => (node.key, node.value))) h.chained.chain
  refine List.map_injective_iff.mpr (Option.some_injective _) ?_
  have hentry : s.content? = fun slot => (s.node? slot).map fun node => (node.key, node.value) := rfl
  rw [← h.entries, hentry, Segment.entries]
  simpa [Function.comp_def] using hchain

/-- The keys met along the chain are those of the list. -/
theorem keys_eq (h : s.Represents slots r) : s.keys = r.keys := by
  rw [Segment.keys, Recency.keys, ← h.entries_eq, Segment.entries, List.map_map]
  rfl

/-! ## What operations do to it -/

/-- Changing links alone leaves the entries in their slots; the new chain gives them their order. -/
theorem relink (h : s.Represents slots r) {t : Segment κ ν} (hfiling : SameFiling s t)
    {order : List Nat} (hchained : t.Chained order) (hmem : ∀ slot ∈ slots, slot ∈ order)
    {entries : List (κ × ν)} (hentries : order.map s.content? = entries.map some) :
    t.Represents order { r with entries } where
  capacity := hfiling.capacity.trans h.capacity
  chained := hchained
  entries := by rwa [funext hfiling.content]
  occupied slot hslot := hmem slot (h.occupied slot (hfiling.content slot ▸ hslot))
  indexed key slot := by rw [hfiling.index, hfiling.content, h.indexed]
  index_nodup := by rw [hfiling.index]; exact h.index_nodup
  vacant slot := by rw [hfiling.free, hfiling.size, hfiling.content, h.vacant]
  free_nodup := by rw [hfiling.free]; exact h.free_nodup
  room := by rw [hfiling.size, hfiling.capacity]; exact h.room

/-- The entry of a slot that is used moves to the front. -/
theorem promote {front back : List Nat} {slot : Nat} (h : s.Represents (front ++ slot :: back) r)
    {before after : List (κ × ν)} {entry : κ × ν} (hfront : front.map s.content? = before.map some)
    (hslot : s.content? slot = some entry) (hback : back.map s.content? = after.map some) :
    (s.promote slot).Represents (slot :: (front ++ back))
      { r with entries := entry :: (before ++ after) } := by
  refine h.relink (SameFiling.promote s slot) h.chained.promote ?_ ?_
  · intro other hother
    simpa [or_left_comm] using hother
  · simp [hfront, hslot, hback]

/-- A new value is seen in its slot only. -/
theorem content?_setValue {key : κ} {held : ν} {slot : Nat}
    (hslot : s.content? slot = some (key, held)) (value : ν) (other : Nat) :
    (s.modifyNode slot fun node => { node with value }).content? other =
      if other = slot then some (key, value) else s.content? other := by
  rw [content?, node?_modifyNode, Option.map_map]
  by_cases heq : other = slot
  · have hkey := congrArg (Option.map fun entry => (entry.1, value)) hslot
    simpa [heq, content?, Function.comp_def] using hkey
  · simp [heq, content?, Function.comp_def]

/-- A new value is not seen in other slots. -/
theorem map_content?_setValue {key : κ} {held : ν} {slot : Nat}
    (hslot : s.content? slot = some (key, held)) (value : ν) {others : List Nat}
    (hout : slot ∉ others) :
    others.map (s.modifyNode slot fun node => { node with value }).content? =
      others.map s.content? := by
  refine List.map_congr_left fun other hother => ?_
  rw [content?_setValue hslot, if_neg (ne_of_mem_of_not_mem hother hout)]

/-- A new value takes the place of the old one. -/
theorem setValue {front back : List Nat} {slot : Nat} (h : s.Represents (front ++ slot :: back) r)
    {before after : List (κ × ν)} {key : κ} {held : ν}
    (hfront : front.map s.content? = before.map some) (hslot : s.content? slot = some (key, held))
    (hback : back.map s.content? = after.map some) (value : ν) :
    (s.modifyNode slot fun node => { node with value }).Represents (front ++ slot :: back)
      { r with entries := before ++ (key, value) :: after } := by
  have hcontent := content?_setValue hslot value
  have hout := (List.nodup_cons.mp (List.nodup_middle.mp h.chained.nodup)).1
  rw [List.mem_append, not_or] at hout
  refine ⟨h.capacity, ?_, ?_, ?_, ?_, h.index_nodup, ?_, h.free_nodup, ?_⟩
  · refine h.chained.congr rfl rfl fun other _ node hnode =>
      ⟨if other = slot then { node with value } else node, ?_, ?_, ?_⟩
    · rw [node?_modifyNode, hnode, Option.map_some]
    all_goals (split <;> rfl)
  · rw [List.map_append, List.map_cons, map_content?_setValue hslot value hout.1,
      map_content?_setValue hslot value hout.2, hcontent, if_pos rfl, hfront, hback]
    simp
  · intro other hsome
    rw [hcontent] at hsome
    split at hsome
    · next heq => simp [heq]
    · exact h.occupied other hsome
  · intro k other
    rw [hcontent]
    split
    · next heq => simpa [heq, hslot, modifyNode] using h.indexed k slot
    · exact h.indexed k other
  · intro other
    rw [hcontent]
    split
    · next heq => simpa [heq, hslot, modifyNode] using h.vacant slot
    · simpa [modifyNode] using h.vacant other
  · simpa [modifyNode] using h.room

/-- What a slot holds that is written over. -/
theorem node?_overwrite (s : Segment κ ν) {slot : Nat} (hslot : slot < s.nodes.size)
    (node : Option (Node κ ν)) (other : Nat) :
    { s with nodes := s.nodes.modify slot fun _ => node }.node? other =
      if other = slot then node else s.node? other := by
  simp only [node?, Array.getElem?_modify]
  by_cases heq : slot = other
  · subst heq
    simp [hslot]
  · simp [heq, Ne.symm heq]

/-- A new entry lies in a slot that was vacant, or is new, and stands in front of all others. -/
theorem link (h : s.Represents slots r) {t : Segment κ ν} {slot : Nat} {key : κ} {value : ν}
    (hvacant : s.content? slot = none) (hkey : ∀ value, (key, value) ∉ r.entries)
    (hcapacity : t.capacity = s.capacity) (hhead : t.head = s.head) (htail : t.tail = s.tail)
    (hindex : t.index = (key, slot) :: s.index)
    (hnode : ∀ other, t.node? other = if other = slot then some { key, value } else s.node? other)
    (hfree : ∀ other, other ∈ t.free ↔
      other < t.nodes.size ∧ other ≠ slot ∧ s.content? other = none)
    (hnodup : t.free.Nodup) (hroom : t.nodes.size ≤ t.capacity) :
    (t.linkFront slot).Represents (slot :: slots) { r with entries := (key, value) :: r.entries } := by
  have hcontent (other : Nat) : t.content? other =
      if other = slot then some (key, value) else s.content? other := by
    rw [content?, hnode]
    split <;> rfl
  have hslot : slot ∉ slots := by
    intro hmem
    obtain ⟨k, v, hv⟩ := h.exists_content hmem
    rw [hvacant] at hv
    cases hv
  have habsent : ∀ other, (key, other) ∉ s.index := by
    intro other hmem
    obtain ⟨v, hv⟩ := (h.indexed key other).mp hmem
    have hentry := List.mem_map_of_mem (f := s.content?) (h.occupied other (by rw [hv]; rfl))
    rw [h.entries, hv] at hentry
    exact hkey v (by simpa using hentry)
  have hfiling := SameFiling.linkFront t slot
  refine ⟨?_, ?_, ?_, ?_, ?_, ?_, ?_, ?_, ?_⟩
  · exact hfiling.capacity.trans (hcapacity.trans h.capacity)
  · refine (h.chained.congr hhead htail fun other hother node hother' => ?_).linkFront hslot ?_
    · exact ⟨node, by rw [hnode, if_neg (ne_of_mem_of_not_mem hother hslot), hother'], rfl, rfl⟩
    · rw [hnode, if_pos rfl]
      rfl
  · rw [funext hfiling.content, List.map_cons, hcontent, if_pos rfl, List.map_cons, ← h.entries]
    refine congrArg (some (key, value) :: ·) (List.map_congr_left fun other hother => ?_)
    rw [hcontent, if_neg (ne_of_mem_of_not_mem hother hslot)]
  · intro other hsome
    rw [hfiling.content, hcontent] at hsome
    split at hsome
    · next heq => simp [heq]
    · exact List.mem_cons_of_mem slot (h.occupied other hsome)
  · intro k other
    rw [hfiling.index, hfiling.content, hcontent, hindex, List.mem_cons, h.indexed]
    split
    · next heq => simp [heq, hvacant, eq_comm]
    · next hne => simp [hne]
  · rw [hfiling.index, hindex, Table.keys, List.map_cons, List.nodup_cons]
    refine ⟨fun hmem => ?_, h.index_nodup⟩
    obtain ⟨⟨k, other⟩, hother, rfl⟩ := List.mem_map.mp hmem
    exact habsent other hother
  · intro other
    rw [hfiling.free, hfiling.size, hfiling.content, hcontent, hfree]
    by_cases heq : other = slot <;> simp [heq]
  · rwa [hfiling.free]
  · rwa [hfiling.size, hfiling.capacity]

/-- If no slot is vacant, all slots are in the chain. -/
theorem size_le_length (h : s.Represents slots r) (hfree : s.free = []) :
    s.nodes.size ≤ slots.length := by
  have hsub : List.range s.nodes.size ⊆ slots := by
    intro slot hslot
    refine h.occupied slot (Option.isSome_iff_ne_none.mpr fun hnone => ?_)
    have := (h.vacant slot).mpr ⟨List.mem_range.mp hslot, hnone⟩
    simp [hfree] at this
  simpa using (List.Nodup.subperm List.nodup_range hsub).length_le

/-- A new key comes to stand in front of all others, if there is room for it. -/
theorem occupy (h : s.Represents slots r) {key : κ} (hkey : ∀ value, (key, value) ∉ r.entries)
    (hroom : r.size < r.capacity) (value : ν) :
    ∃ slots, (s.occupy key value).Represents slots
      { r with entries := (key, value) :: r.entries } := by
  rw [Segment.occupy]
  split
  · next slot free hfree =>
    obtain ⟨hslot, hvacant⟩ := (h.vacant slot).mp (by simp [hfree])
    have hnodup := List.nodup_cons.mp (hfree ▸ h.free_nodup)
    refine ⟨slot :: slots, h.link hvacant hkey rfl rfl rfl rfl (node?_overwrite s hslot _) ?_ hnodup.2
      (by simpa using h.room)⟩
    intro other
    have hother := h.vacant other
    rw [hfree, List.mem_cons] at hother
    by_cases heq : other = slot
    · simp [heq, hnodup.1]
    · simpa [heq] using hother
  · next hfree =>
    have hsize : s.nodes.size < s.capacity := by
      have := h.size_le_length hfree
      rw [h.length_eq] at this
      rw [h.capacity]
      omega
    refine ⟨s.nodes.size :: slots, h.link (by simp [content?, node?]) hkey rfl rfl rfl rfl ?_ ?_
      (by simp [hfree]) (by rw [Array.size_push]; exact hsize)⟩
    · intro other
      simp only [node?, Array.getElem?_push]
      split <;> rfl
    · intro other
      have hother := h.vacant other
      simp only [hfree, List.not_mem_nil, false_iff, not_and] at hother
      simp only [hfree, List.not_mem_nil, Array.size_push, false_iff, not_and]
      intro hlt hne hnone
      exact hother (by omega) hnone

variable [DecidableEq κ]

/-- A key is found in the slot of its entry. -/
theorem slot?_eq_some_iff (h : s.Represents slots r) {key : κ} {slot : Nat} :
    s.slot? key = some slot ↔ ∃ value, s.content? slot = some (key, value) :=
  (Table.lookup_eq_some_iff h.index_nodup).trans (h.indexed key slot)

/-- No key lies in two slots. -/
theorem slot_inj (h : s.Represents slots r) {a b : Nat} {key : κ} {v w : ν}
    (ha : s.content? a = some (key, v)) (hb : s.content? b = some (key, w)) : a = b := by
  have hslot := h.slot?_eq_some_iff.mpr ⟨v, ha⟩
  rw [h.slot?_eq_some_iff.mpr ⟨w, hb⟩] at hslot
  exact (Option.some.inj hslot).symm

/-- No key stands twice in the list. -/
theorem keys_nodup (h : s.Represents slots r) : r.keys.Nodup := by
  have hkeys : slots.map (fun slot => (s.content? slot).map (·.1)) = r.keys.map some := by
    have := congrArg (List.map (Option.map Prod.fst)) h.entries
    simpa [Recency.keys, Function.comp_def] using this
  refine List.Nodup.of_map some (hkeys ▸ List.Nodup.map_on ?_ h.chained.nodup)
  intro a ha b hb heq
  obtain ⟨key, v, hv⟩ := h.exists_content ha
  obtain ⟨other, w, hw⟩ := h.exists_content hb
  obtain rfl : key = other := by simpa [hv, hw] using heq
  exact h.slot_inj hv hw

/-- The entry of a key stands in the list where its slot stands in the chain. -/
theorem exists_split (h : s.Represents slots r) {key : κ} {slot : Nat}
    (hslot : s.slot? key = some slot) :
    ∃ front back before value after, slots = front ++ slot :: back ∧
      r.entries = before ++ (key, value) :: after ∧ front.map s.content? = before.map some ∧
      s.content? slot = some (key, value) ∧ back.map s.content? = after.map some := by
  obtain ⟨value, hentry⟩ := h.slot?_eq_some_iff.mp hslot
  obtain ⟨front, back, hslots⟩ := List.append_of_mem (h.occupied slot (by rw [hentry]; rfl))
  have hentries := h.entries
  rw [hslots, List.map_append, List.map_cons, hentry] at hentries
  obtain ⟨before, rest, hr, hbefore, hrest⟩ := List.map_eq_append_iff.mp hentries.symm
  obtain ⟨entry, after, rfl, heq, hafter⟩ := List.map_eq_cons_iff.mp hrest
  obtain rfl := Option.some.inj heq
  exact ⟨front, back, before, value, after, hslots, hr, hbefore.symm, hentry, hafter.symm⟩

/-- Both find the same value under a key. -/
theorem peek?_eq (h : s.Represents slots r) (key : κ) : s.peek? key = r.peek? key := by
  cases hslot : s.slot? key with
  | some slot =>
    obtain ⟨front, back, before, value, after, -, hr, -, hentry, -⟩ := h.exists_split hslot
    have hmem : (key, value) ∈ r.entries := by simp [hr]
    rw [Segment.peek?, hslot, Option.bind_some, map_value_of_content? hentry, Recency.peek?,
      (Table.lookup_eq_some_iff h.keys_nodup).mpr hmem]
  | none =>
    have hpeek : r.peek? key = none := by
      refine Option.eq_none_iff_forall_ne_some.mpr fun value hvalue => ?_
      have hmem := List.mem_map_of_mem (f := some)
        ((Table.lookup_eq_some_iff h.keys_nodup).mp hvalue)
      rw [← h.entries] at hmem
      obtain ⟨slot, -, hentry⟩ := List.mem_map.mp hmem
      rw [h.slot?_eq_some_iff.mpr ⟨value, hentry⟩] at hslot
      cases hslot
    rw [Segment.peek?, hslot, hpeek, Option.bind_none]

/-- A slot that is emptied takes its entry out of the list. -/
theorem vacate {front back : List Nat} {slot : Nat} (h : s.Represents (front ++ slot :: back) r)
    {before after : List (κ × ν)} {key : κ} {value : ν}
    (hfront : front.map s.content? = before.map some) (hslot : s.content? slot = some (key, value))
    (hback : back.map s.content? = after.map some) {t : Segment κ ν}
    (hcapacity : t.capacity = s.capacity) (hchained : t.Chained (front ++ back))
    (hindex : t.index = s.index.filter fun entry => entry.1 ≠ key)
    (hcontent : ∀ other, t.content? other = if other = slot then none else s.content? other)
    (hfree : t.free = slot :: s.free) (hsize : t.nodes.size = s.nodes.size) :
    t.Represents (front ++ back) { r with entries := before ++ after } := by
  have hout := (List.nodup_cons.mp (List.nodup_middle.mp h.chained.nodup)).1
  refine ⟨hcapacity.trans h.capacity, hchained, ?_, ?_, ?_, ?_, ?_, ?_, ?_⟩
  · have hmap : (front ++ back).map s.content? = (before ++ after).map some := by
      rw [List.map_append, List.map_append, hfront, hback]
    refine (List.map_congr_left fun other hother => ?_).trans hmap
    rw [hcontent, if_neg (ne_of_mem_of_not_mem hother hout)]
  · intro other hsome
    rw [hcontent] at hsome
    split at hsome
    · simp at hsome
    · next hne => simpa [hne] using h.occupied other hsome
  · intro k other
    rw [hindex, hcontent, List.mem_filter, h.indexed]
    split
    · next heq => simpa [heq, hslot] using fun hkey : key = k => hkey.symm
    · next hne =>
      have hk (v : ν) (hv : s.content? other = some (k, v)) : k ≠ key := by
        rintro rfl
        exact hne (h.slot_inj hv hslot)
      simpa using hk
  · rw [hindex, Table.keys]
    exact (List.filter_sublist.map _).nodup h.index_nodup
  · intro other
    rw [hfree, hsize, hcontent, List.mem_cons, h.vacant]
    by_cases heq : other = slot
    · have hlt : slot < s.nodes.size := by
        refine lt_size_of_node? ?_
        simpa [content?] using congrArg Option.isSome hslot
      simp [heq, hlt]
    · simp [heq]
  · rw [hfree, List.nodup_cons]
    exact ⟨fun hmem => by simp [((h.vacant slot).mp hmem).2] at hslot, h.free_nodup⟩
  · rw [hsize, hcapacity]
    exact h.room

/-- Only the entry that is taken leaves the list. -/
theorem take {front back : List Nat} {slot : Nat} (h : s.Represents (front ++ slot :: back) r)
    {before after : List (κ × ν)} {key : κ} {value : ν}
    (hfront : front.map s.content? = before.map some) (hslot : s.content? slot = some (key, value))
    (hback : back.map s.content? = after.map some) :
    (s.take slot).1.map (·.value) = some value ∧
      (s.take slot).2.Represents (front ++ back) { r with entries := before ++ after } := by
  have hfiling := SameFiling.unlink s slot
  obtain ⟨node, hnode, hpair⟩ := Option.map_eq_some_iff.mp ((hfiling.content slot).trans hslot)
  obtain ⟨rfl, rfl⟩ := Prod.ext_iff.mp hpair
  have hover := node?_overwrite (s.unlink slot) (lt_size_of_node? (by rw [hnode]; rfl)) none
  have hout := (List.nodup_cons.mp (List.nodup_middle.mp h.chained.nodup)).1
  rw [Segment.take]
  simp only [hnode, Option.map_some, true_and]
  refine h.vacate hfront hslot hback hfiling.capacity ?_ ?_ ?_ ?_ ?_
  · refine h.chained.unlink.congr rfl rfl fun other hother m hm => ⟨m, ?_, rfl, rfl⟩
    exact (hover other).trans (by rw [if_neg (ne_of_mem_of_not_mem hother hout), hm])
  · simp [hfiling.index]
  · intro other
    rw [← hfiling.content, content?, content?]
    refine (congrArg _ (hover other)).trans ?_
    split <;> rfl
  · simp [hfiling.free]
  · simp [hfiling.size]

/-- The other entries of a list are those before and behind that of a key. -/
theorem others_eq (h : s.Represents slots r) {key : κ} {value : ν} {before after : List (κ × ν)}
    (hr : r.entries = before ++ (key, value) :: after) : r.others key = before ++ after := by
  have hnodup := h.keys_nodup
  rw [Recency.keys, hr, List.map_append, List.map_cons] at hnodup
  have hout := (List.nodup_cons.mp (List.nodup_middle.mp hnodup)).1
  rw [Recency.others, hr, List.filter_append, List.filter_cons_of_neg (by simp), ← List.filter_append]
  refine List.filter_eq_self.mpr fun entry hentry => ?_
  have hne : entry.1 ≠ key := by
    rintro rfl
    exact hout (by simpa using List.mem_map_of_mem (f := Prod.fst) hentry)
  simpa using hne

end Represents

/-- The segment stands for the list. -/
def Holds (s : Segment κ ν) (r : Recency κ ν) : Prop := ∃ slots, s.Represents slots r

namespace Holds

variable {s : Segment κ ν} {r : Recency κ ν}

/-- A segment without entries stands for the list without entries. -/
theorem empty (capacity : Nat) : (Segment.empty capacity : Segment κ ν).Holds (.empty capacity) := by
  refine ⟨[], rfl, ⟨List.nodup_nil, rfl, rfl, by simp⟩, rfl, ?_, ?_, ?_, ?_, ?_, ?_⟩ <;>
    simp [Segment.empty, content?, node?, Table.keys]

/-- Dropping all entries leaves the list without entries. -/
theorem cleared (h : s.Holds r) : s.cleared.Holds r.cleared := by
  obtain ⟨slots, h⟩ := h
  rw [Segment.cleared, Recency.cleared, h.capacity]
  exact empty r.capacity

variable [DecidableEq κ]

/-- A look-up finds what the list holds and moves the same entry to the front. -/
theorem get (h : s.Holds r) (key : κ) :
    (s.get key).1 = (r.get key).1 ∧ (s.get key).2.Holds (r.get key).2 := by
  obtain ⟨slots, h⟩ := h
  have hpeek := h.peek?_eq key
  cases hslot : s.slot? key with
  | none =>
    rw [Segment.peek?, hslot, Option.bind_none] at hpeek
    rw [Segment.get, hslot, Recency.get, ← hpeek]
    exact ⟨rfl, slots, h⟩
  | some slot =>
    obtain ⟨front, back, before, value, after, rfl, hr, hfront, hcontent, hback⟩ := h.exists_split hslot
    have hpromoted := ((SameFiling.promote s slot).content slot).trans hcontent
    rw [Segment.peek?, hslot, Option.bind_some, map_value_of_content? hcontent] at hpeek
    rw [Segment.get, hslot, Recency.get, ← hpeek, h.others_eq hr]
    exact ⟨map_value_of_content? hpromoted, _, h.promote hfront hcontent hback⟩

/-- Removing a key gives back what the list holds under it and takes it out of the list. -/
theorem remove (h : s.Holds r) (key : κ) :
    (s.remove key).1 = (r.remove key).1 ∧ (s.remove key).2.Holds (r.remove key).2 := by
  obtain ⟨slots, h⟩ := h
  have hpeek := h.peek?_eq key
  cases hslot : s.slot? key with
  | none =>
    rw [Segment.peek?, hslot, Option.bind_none] at hpeek
    have hothers : r.others key = r.entries := by
      refine List.filter_eq_self.mpr fun entry hentry => ?_
      have hne : entry.1 ≠ key := by
        rintro rfl
        have hsome := (Table.lookup_eq_some_iff h.keys_nodup).mpr hentry
        rw [Recency.peek?, hsome] at hpeek
        cases hpeek
      simpa using hne
    rw [Segment.remove, hslot, Recency.remove, ← hpeek, hothers]
    exact ⟨rfl, slots, h⟩
  | some slot =>
    obtain ⟨front, back, before, value, after, rfl, hr, hfront, hcontent, hback⟩ := h.exists_split hslot
    rw [Segment.peek?, hslot, Option.bind_some, map_value_of_content? hcontent] at hpeek
    obtain ⟨htaken, hholds⟩ := h.take hfront hcontent hback
    rw [Segment.remove, hslot, Recency.remove, ← hpeek, h.others_eq hr]
    exact ⟨htaken, _, hholds⟩

/-- The entry that is evicted is the last of the list. -/
theorem evictTail (h : s.Holds r) :
    s.evictTail.1 = !r.entries.isEmpty ∧
      s.evictTail.2.Holds { r with entries := r.entries.dropLast } := by
  obtain ⟨slots, h⟩ := h
  rcases List.eq_nil_or_concat r.entries with hnil | ⟨before, ⟨key, value⟩, hr⟩
  · obtain rfl : slots = [] := by simpa [hnil] using h.entries
    rw [Segment.evictTail, h.chained.tail, hnil]
    refine ⟨rfl, [], ?_⟩
    rw [List.dropLast_nil, ← hnil]
    exact h
  · rw [List.concat_eq_append] at hr
    have hentries := h.entries
    rw [hr, List.map_append, List.map_singleton] at hentries
    obtain ⟨front, last, rfl, hfront, hlast⟩ := List.map_eq_append_iff.mp hentries
    obtain ⟨slot, rfl, hcontent⟩ := List.map_eq_singleton_iff.mp hlast
    have hback : ([] : List Nat).map s.content? = ([] : List (κ × ν)).map some := rfl
    obtain ⟨htaken, hholds⟩ := h.take hfront hcontent hback
    rw [Segment.evictTail, h.chained.tail]
    simp only [List.getLast?_append, List.getLast?_singleton, Option.some_or, hr,
      List.dropLast_concat]
    refine ⟨?_, _, by simpa using hholds⟩
    have hsome : (s.take slot).1.isSome = true := by simpa using congrArg Option.isSome htaken
    simp [hsome]

/-- A list finds nothing under the keys that it does not hold. -/
theorem not_mem_of_peek? (h : s.Holds r) {key : κ} (hnone : r.peek? key = none) (value : ν) :
    (key, value) ∉ r.entries := by
  obtain ⟨slots, h⟩ := h
  intro hmem
  have hsome := (Table.lookup_eq_some_iff h.keys_nodup).mpr hmem
  rw [Recency.peek?, hsome] at hnone
  cases hnone

/-- A new key comes to stand in front, and pushes out the last entry if there is no room. -/
theorem push (h : s.Holds r) (hpos : 0 < r.capacity) {key : κ} (hnone : r.peek? key = none)
    (value : ν) :
    (if s.capacity ≤ s.size then s.evictTail else (false, s)).1 = decide (r.capacity ≤ r.size) ∧
      ((if s.capacity ≤ s.size then s.evictTail else (false, s)).2.occupy key value).Holds
        (r.push key value) := by
  have habsent := h.not_mem_of_peek? hnone
  obtain ⟨hevicted, slots', h'⟩ := h.evictTail
  obtain ⟨slots, h⟩ := h
  have hle := h.size_le
  rw [h.capacity, h.size_eq, Recency.push]
  by_cases hfull : r.capacity ≤ r.size
  · have hsize : r.entries.length = r.capacity := Nat.le_antisymm hle hfull
    have hne : r.entries ≠ [] := List.ne_nil_of_length_pos (by omega)
    rw [if_pos hfull, if_pos hfull]
    refine ⟨by simp [hevicted, hne, hfull], h'.occupy ?_ ?_ value⟩
    · exact fun v hmem => habsent v ((List.dropLast_sublist _).mem hmem)
    · change r.entries.dropLast.length < r.capacity
      rw [List.length_dropLast]
      omega
  · rw [if_neg hfull, if_neg hfull]
    exact ⟨by simp [hfull], h.occupy habsent (by omega) value⟩

/-- An insertion says what has become of the key, and does to the list what it does to the segment. -/
theorem insert (h : s.Holds r) (hpos : 0 < r.capacity) (key : κ) (value : ν) (update : Bool) :
    (s.insert key value update).1 =
        (match r.peek? key with
          | none => .added (decide (r.capacity ≤ r.size))
          | some held => if update then .replaced else .kept held) ∧
      (s.insert key value update).2.Holds (r.put update key value) := by
  cases hslot : s.slot? key with
  | none =>
    have hpeek : r.peek? key = none := by
      obtain ⟨slots, h⟩ := h
      rw [← h.peek?_eq, Segment.peek?, hslot, Option.bind_none]
    obtain ⟨hevicted, hholds⟩ := h.push hpos hpeek value
    rw [Segment.insert, hslot, Recency.put, hpeek]
    exact ⟨congrArg Insertion.added hevicted, hholds⟩
  | some slot =>
    obtain ⟨slots, h⟩ := h
    obtain ⟨front, back, before, held, after, rfl, hr, hfront, hcontent, hback⟩ := h.exists_split hslot
    have hheld := map_value_of_content? hcontent
    have hpeek : r.peek? key = some held := by
      rw [← h.peek?_eq, Segment.peek?, hslot, Option.bind_some, hheld]
    rw [Segment.insert, hslot, Recency.put, hpeek]
    cases update with
    | false => exact ⟨by simp [hheld], _, h⟩
    | true =>
      have hout := (List.nodup_cons.mp (List.nodup_middle.mp h.chained.nodup)).1
      rw [List.mem_append, not_or] at hout
      have hset := h.setValue hfront hcontent hback value
      have hused := hset.promote ((Represents.map_content?_setValue hcontent value hout.1).trans hfront)
        ((Represents.content?_setValue hcontent value slot).trans (if_pos rfl))
        ((Represents.map_content?_setValue hcontent value hout.2).trans hback)
      rw [h.others_eq hr]
      exact ⟨rfl, _, hused⟩

end Holds

end EvidenceFlow.Segment
