import Mathlib.Data.List.Nodup
import Mathlib.Data.List.Perm.Subperm
import EvidenceFlow.Cache.Segment

/-!
# The chain of a segment

The slots in use form one chain, which can be followed forwards from the head and backwards from the
tail. A list of slots says which chain it is: each slot of the list points back to the one before it
and forth to the one behind it. Taking a slot out of the chain and putting one at its head do the same
to the list, and neither touches the entries in the slots.
-/

namespace EvidenceFlow.Segment

variable {κ ν : Type}

/-- The key and the value in a slot. -/
def content? (s : Segment κ ν) (slot : Nat) : Option (κ × ν) :=
  (s.node? slot).map fun node => (node.key, node.value)

/-- The slots, from the most to the least recently used, are those of the chain. -/
structure Chained (s : Segment κ ν) (slots : List Nat) : Prop where
  /-- The chain meets no slot twice. -/
  nodup : slots.Nodup
  /-- The chain begins at the head. -/
  head : s.head = slots.head?
  /-- The chain ends at the tail. -/
  tail : s.tail = slots.getLast?
  /-- Each slot holds a node that points to its neighbours in the chain. -/
  links : ∀ front slot back, slots = front ++ slot :: back →
    ∃ node, s.node? slot = some node ∧ node.prev = front.getLast? ∧ node.next = back.head?

/-! ## Single links -/

/-- Changing one node changes no other. -/
theorem node?_modifyNode (s : Segment κ ν) (slot other : Nat) (f : Node κ ν → Node κ ν) :
    (s.modifyNode slot f).node? other =
      (s.node? other).map fun m => if other = slot then f m else m := by
  rw [node?, modifyNode, node?, Array.getElem?_modify]
  by_cases h : slot = other
  · subst h
    rcases s.nodes[slot]? with _ | _ | node <;> simp
  · simp [h, Ne.symm h]

/-- A link back from a slot is seen in that slot only. -/
theorem node?_linkBack (s : Segment κ ν) (slot prev : Option Nat) (other : Nat) :
    (s.linkBack slot prev).node? other =
      (s.node? other).map fun m => if slot = some other then { m with prev } else m := by
  cases slot with
  | none => simp [linkBack, node?]
  | some slot => simp only [linkBack, node?_modifyNode, Option.some.injEq, eq_comm]

/-- A link forth from a slot is seen in that slot only. -/
theorem node?_linkForth (s : Segment κ ν) (slot next : Option Nat) (other : Nat) :
    (s.linkForth slot next).node? other =
      (s.node? other).map fun m => if slot = some other then { m with next } else m := by
  cases slot with
  | none => simp [linkForth, node?]
  | some slot => simp only [linkForth, node?_modifyNode, Option.some.injEq, eq_comm]

/-! ## Taking a slot out of the chain -/

/-- The neighbours of the slot that is taken out point to each other, and its own links are cut. -/
theorem node?_unlink {s : Segment κ ν} {slot : Nat} {node : Node κ ν} (h : s.node? slot = some node)
    (other : Nat) :
    (s.unlink slot).node? other = (s.node? other).map fun m =>
      if other = slot then { m with prev := none, next := none }
      else
        { m with
          prev := if node.next = some other then node.prev else m.prev
          next := if node.prev = some other then node.next else m.next } := by
  simp only [unlink, h, node?_modifyNode, node?_linkBack, node?_linkForth, Option.map_map]
  refine congrArg (Option.map · (s.node? other)) (funext fun m => ?_)
  simp only [Function.comp_apply]
  split_ifs <;> rfl

/-- The head moves on if the first slot is taken out. -/
theorem head_unlink {s : Segment κ ν} {slot : Nat} {node : Node κ ν} (h : s.node? slot = some node) :
    (s.unlink slot).head = if node.prev = none then node.next else s.head := by
  simp only [unlink, h, modifyNode]
  cases node.prev <;> cases node.next <;> rfl

/-- The tail moves back if the last slot is taken out. -/
theorem tail_unlink {s : Segment κ ν} {slot : Nat} {node : Node κ ν} (h : s.node? slot = some node) :
    (s.unlink slot).tail = if node.next = none then node.prev else s.tail := by
  simp only [unlink, h, modifyNode]
  cases node.prev <;> cases node.next <;> rfl

/-- Where one member of a list stands that was put together from two lists. -/
private theorem append_eq_append_cons {front back before after : List Nat} {other : Nat}
    (h : front ++ back = before ++ other :: after) :
    (∃ mid, before = front ++ mid ∧ back = mid ++ other :: after) ∨
      ∃ mid, front = before ++ other :: mid ∧ after = mid ++ back := by
  rcases List.append_eq_append_iff.mp h with hbehind | ⟨mid, hfront, hmid⟩
  · exact Or.inl hbehind
  · rcases List.cons_eq_append_iff.mp hmid with ⟨rfl, hback⟩ | ⟨mid, rfl, hafter⟩
    · exact Or.inl ⟨[], by simpa using hfront.symm, hback⟩
    · exact Or.inr ⟨mid, hfront, hafter⟩

/-- What is left when a slot is taken out is the chain without it. -/
theorem Chained.unlink {s : Segment κ ν} {front back : List Nat} {slot : Nat}
    (h : s.Chained (front ++ slot :: back)) : (s.unlink slot).Chained (front ++ back) := by
  obtain ⟨node, hnode, hprev, hnext⟩ := h.links front slot back rfl
  obtain ⟨hslot, hnodup⟩ := List.nodup_cons.mp (List.nodup_middle.mp h.nodup)
  refine ⟨hnodup, ?_, ?_, ?_⟩
  · rw [head_unlink hnode, hprev, hnext, h.head]
    cases front <;> simp
  · rw [tail_unlink hnode, hprev, hnext, h.tail]
    cases back <;> simp
  · intro before other after hsplit
    have hother : other ≠ slot := by
      rintro rfl
      exact hslot (by simp [hsplit])
    -- the slot looked at lies behind the one taken out, or before it
    rcases append_eq_append_cons hsplit with ⟨mid, rfl, rfl⟩ | ⟨mid, rfl, rfl⟩
    · obtain ⟨m, hm, hmprev, hmnext⟩ := h.links (front ++ slot :: mid) other after (by simp)
      have hfront : front.getLast? ≠ some other := fun hlast =>
        (List.nodup_append.mp hnodup).2.2 other (List.mem_of_getLast? hlast) other (by simp) rfl
      refine ⟨_, by rw [node?_unlink hnode, hm, Option.map_some, if_neg hother], ?_, ?_⟩
      · cases mid with
        | nil => simp [hnext, hprev]
        | cons x mid =>
          have hx : x ≠ other := by
            rintro rfl
            simp [List.nodup_append] at hnodup
          simp [hnext, hx, hmprev]
      · simp [hprev, hfront, hmnext]
    · obtain ⟨m, hm, hmprev, hmnext⟩ := h.links before other (mid ++ slot :: back) (by simp)
      have hback : back.head? ≠ some other := fun hfirst =>
        (List.nodup_append.mp hnodup).2.2 other (by simp) other (List.mem_of_head? hfirst) rfl
      refine ⟨_, by rw [node?_unlink hnode, hm, Option.map_some, if_neg hother], ?_, ?_⟩
      · simp [hnext, hback, hmprev]
      · rcases List.eq_nil_or_concat mid with rfl | ⟨mid, x, rfl⟩
        · simp [hprev, hnext]
        · have hx : x ≠ other := by
            rintro rfl
            simp [List.nodup_append] at hnodup
          cases mid <;> simp [hprev, hx, hmnext, List.getLast?_cons]

/-! ## Putting a slot at the head of the chain -/

/-- Putting a slot at the head sets its links, then the link back from the head so far, then the ends. -/
theorem linkFront_eq (s : Segment κ ν) (slot : Nat) :
    s.linkFront slot =
      { (s.modifyNode slot fun m => { m with prev := none, next := s.head }).linkBack s.head
          (some slot) with
        head := some slot
        tail := s.tail.or (some slot) } := by
  rw [linkFront]
  cases s.head <;> rfl

/-- The slot put at the head points forth to the head so far, which points back to it. -/
theorem node?_linkFront (s : Segment κ ν) (slot other : Nat) :
    (s.linkFront slot).node? other = (s.node? other).map fun m =>
      { m with
        prev := if s.head = some other then some slot else if other = slot then none else m.prev
        next := if other = slot then s.head else m.next } := by
  have hends (t : Segment κ ν) (head tail : Option Nat) :
      { t with head, tail }.node? other = t.node? other := rfl
  rw [linkFront_eq, hends, node?_linkBack, node?_modifyNode, Option.map_map]
  refine congrArg (Option.map · (s.node? other)) (funext fun m => ?_)
  simp only [Function.comp_apply]
  split_ifs <;> rfl

/-- What is linked in front is the head. -/
@[simp] theorem head_linkFront (s : Segment κ ν) (slot : Nat) :
    (s.linkFront slot).head = some slot := rfl

/-- What is linked in front is the tail only if there was none. -/
@[simp] theorem tail_linkFront (s : Segment κ ν) (slot : Nat) :
    (s.linkFront slot).tail = s.tail.or (some slot) := by
  rw [linkFront_eq]

/-- A slot that is not in the chain comes to stand before all others. -/
theorem Chained.linkFront {s : Segment κ ν} {slots : List Nat} (h : s.Chained slots) {slot : Nat}
    (hslot : slot ∉ slots) (hnode : (s.node? slot).isSome) :
    (s.linkFront slot).Chained (slot :: slots) := by
  refine ⟨List.nodup_cons.mpr ⟨hslot, h.nodup⟩, by simp, ?_, ?_⟩
  · rw [tail_linkFront, h.tail, List.getLast?_cons]
    cases slots.getLast? <;> rfl
  · intro front other back hsplit
    rcases List.cons_eq_append_iff.mp hsplit with ⟨rfl, hback⟩ | ⟨front, rfl, rfl⟩
    · obtain ⟨rfl, rfl⟩ := List.cons.inj hback
      obtain ⟨node, hnode⟩ := Option.isSome_iff_exists.mp hnode
      refine ⟨_, by rw [node?_linkFront, hnode, Option.map_some], ?_, ?_⟩
      · have hfirst : s.head ≠ some other := fun hfirst =>
          hslot (List.mem_of_head? (h.head ▸ hfirst))
        simp [hfirst]
      · simp [h.head]
    · obtain ⟨m, hm, hmprev, hmnext⟩ := h.links front other back rfl
      have hother : other ≠ slot := by
        rintro rfl
        exact hslot (by simp)
      refine ⟨_, by rw [node?_linkFront, hm, Option.map_some], ?_, ?_⟩
      · cases front with
        | nil => simp [h.head]
        | cons x front =>
          have hx : x ≠ other := by
            rintro rfl
            exact (List.nodup_cons.mp h.nodup).1 (by simp)
          simp [h.head, hx, hother, hmprev, List.getLast?_cons]
      · simp [hother, hmnext]

/-- The slot that is used comes to stand before all others, which keep their order. -/
theorem Chained.promote {s : Segment κ ν} {front back : List Nat} {slot : Nat}
    (h : s.Chained (front ++ slot :: back)) : (s.promote slot).Chained (slot :: (front ++ back)) := by
  obtain ⟨node, hnode, -, -⟩ := h.links front slot back rfl
  have hslot := (List.nodup_cons.mp (List.nodup_middle.mp h.nodup)).1
  rw [Segment.promote]
  split
  · next hhead =>
    cases front with
    | nil => exact h
    | cons x front =>
      rw [h.head] at hhead
      obtain rfl : x = slot := by simpa using hhead
      exact absurd h.nodup (by simp)
  · exact h.unlink.linkFront hslot (by rw [node?_unlink hnode, hnode]; rfl)

/-! ## Walking along the chain -/

/-- From any slot of the chain, walking on meets the nodes of the slots behind it. -/
theorem Chained.follow {s : Segment κ ν} (front : List Nat) {back : List Nat}
    (h : s.Chained (front ++ back)) (fuel : Nat) (hfuel : back.length ≤ fuel) :
    (s.follow fuel back.head?).map some = back.map s.node? := by
  induction fuel generalizing front back with
  | zero =>
    obtain rfl : back = [] := List.length_eq_zero_iff.mp (by omega)
    rfl
  | succ fuel ih =>
    cases back with
    | nil => rfl
    | cons slot back =>
      obtain ⟨node, hnode, -, hnext⟩ := h.links front slot back rfl
      have hrest := ih (front ++ [slot]) (by simpa using h) (by simpa using hfuel)
      simp only [List.head?_cons, Segment.follow, hnode, List.map_cons, hnext, hrest]

/-- A slot that holds a node is one of the slots there are. -/
theorem lt_size_of_node? {s : Segment κ ν} {slot : Nat} (h : (s.node? slot).isSome) :
    slot < s.nodes.size := by
  by_contra hslot
  rw [node?, Array.getElem?_eq_none (by omega)] at h
  simp at h

/-- The chain is not longer than there are slots. -/
theorem Chained.length_le {s : Segment κ ν} {slots : List Nat} (h : s.Chained slots) :
    slots.length ≤ s.nodes.size := by
  have hsub : slots ⊆ List.range s.nodes.size := by
    intro slot hslot
    obtain ⟨front, back, hsplit⟩ := List.append_of_mem hslot
    obtain ⟨node, hnode, -, -⟩ := h.links front slot back hsplit
    exact List.mem_range.mpr (lt_size_of_node? (by rw [hnode]; rfl))
  simpa using (List.Nodup.subperm h.nodup hsub).length_le

/-- Walking from the head meets the nodes of all the slots in use, in order. -/
theorem Chained.chain {s : Segment κ ν} {slots : List Nat} (h : s.Chained slots) :
    s.chain.map some = slots.map s.node? := by
  rw [Segment.chain, h.head]
  exact Chained.follow [] h _ h.length_le

/-- The chain is settled by its ends and by the links of the nodes in its slots. -/
theorem Chained.congr {s t : Segment κ ν} {slots : List Nat} (h : s.Chained slots)
    (hhead : t.head = s.head) (htail : t.tail = s.tail)
    (hlinks : ∀ slot ∈ slots, ∀ node, s.node? slot = some node →
      ∃ m, t.node? slot = some m ∧ m.prev = node.prev ∧ m.next = node.next) : t.Chained slots := by
  refine ⟨h.nodup, hhead.trans h.head, htail.trans h.tail, ?_⟩
  intro front slot back hsplit
  obtain ⟨node, hnode, hprev, hnext⟩ := h.links front slot back hsplit
  obtain ⟨m, hm, hmprev, hmnext⟩ := hlinks slot (by simp [hsplit]) node hnode
  exact ⟨m, hm, hmprev.trans hprev, hmnext.trans hnext⟩

/-! ## What a change of links leaves alone -/

/-- Two segments that differ in links only. -/
structure SameFiling (s t : Segment κ ν) : Prop where
  /-- There is the same room. -/
  capacity : t.capacity = s.capacity
  /-- Keys are found in the same slots. -/
  index : t.index = s.index
  /-- The same slots are vacant. -/
  free : t.free = s.free
  /-- There are as many slots. -/
  size : t.nodes.size = s.nodes.size
  /-- Each slot holds the same entry. -/
  content : ∀ slot, t.content? slot = s.content? slot

namespace SameFiling

variable {s t u : Segment κ ν}

/-- The filing stays the same over two changes if it does over each. -/
theorem trans (hst : SameFiling s t) (htu : SameFiling t u) : SameFiling s u where
  capacity := htu.capacity.trans hst.capacity
  index := htu.index.trans hst.index
  free := htu.free.trans hst.free
  size := htu.size.trans hst.size
  content slot := (htu.content slot).trans (hst.content slot)

/-- The filing of a segment is its own. -/
theorem refl (s : Segment κ ν) : SameFiling s s := ⟨rfl, rfl, rfl, rfl, fun _ => rfl⟩

/-- Moving the ends of the chain changes no node. -/
theorem ends (s : Segment κ ν) (head tail : Option Nat) : SameFiling s { s with head, tail } :=
  ⟨rfl, rfl, rfl, rfl, fun _ => rfl⟩

/-- A node keeps its entry if it keeps its key and its value. -/
theorem modifyNode (s : Segment κ ν) (slot : Nat) {f : Node κ ν → Node κ ν}
    (hf : ∀ node, (f node).key = node.key ∧ (f node).value = node.value) :
    SameFiling s (s.modifyNode slot f) := by
  refine ⟨rfl, rfl, rfl, by simp [Segment.modifyNode], fun other => ?_⟩
  rw [content?, node?_modifyNode, Option.map_map]
  refine congrArg (Option.map · (s.node? other)) (funext fun node => ?_)
  by_cases h : other = slot <;> simp [h, hf node]

/-- Linking backwards leaves the filing alone. -/
theorem linkBack (s : Segment κ ν) (slot prev : Option Nat) : SameFiling s (s.linkBack slot prev) := by
  cases slot with
  | none => exact ends s s.head prev
  | some slot => exact modifyNode s slot fun _ => ⟨rfl, rfl⟩

/-- Linking forwards leaves the filing alone. -/
theorem linkForth (s : Segment κ ν) (slot next : Option Nat) :
    SameFiling s (s.linkForth slot next) := by
  cases slot with
  | none => exact ends s next s.tail
  | some slot => exact modifyNode s slot fun _ => ⟨rfl, rfl⟩

/-- Taking an entry out of the chain leaves the filing alone. -/
theorem unlink (s : Segment κ ν) (slot : Nat) : SameFiling s (s.unlink slot) := by
  rw [Segment.unlink]
  split
  · exact refl s
  · next node _ =>
    exact ((linkForth s node.prev node.next).trans (linkBack _ node.next node.prev)).trans
      (modifyNode _ slot fun _ => ⟨rfl, rfl⟩)

/-- Linking an entry in front leaves the filing alone. -/
theorem linkFront (s : Segment κ ν) (slot : Nat) : SameFiling s (s.linkFront slot) := by
  have hslot := modifyNode s slot (f := fun node => { node with prev := none, next := s.head })
    fun _ => ⟨rfl, rfl⟩
  rw [linkFront_eq]
  exact (hslot.trans (linkBack _ s.head (some slot))).trans (ends _ _ _)

/-- Moving an entry to the front leaves the filing alone. -/
theorem promote (s : Segment κ ν) (slot : Nat) : SameFiling s (s.promote slot) := by
  rw [Segment.promote]
  split
  · exact refl s
  · exact (unlink s slot).trans (linkFront _ slot)

end SameFiling

end EvidenceFlow.Segment
