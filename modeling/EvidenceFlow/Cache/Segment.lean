/-!
# Segments

A segment holds a bounded number of entries and knows which of them was used least recently. The
entries lie in numbered slots and are linked into one chain from the most to the least recently used;
an index finds the slot of a key, and a stack of vacant slots is used up before the segment grows. Each
operation changes a bounded number of links.
-/

namespace EvidenceFlow

/-- An entry and its neighbours in the chain. -/
structure Segment.Node (κ ν : Type) where
  /-- The key. -/
  key : κ
  /-- The value. -/
  value : ν
  /-- The slot of the entry used next more recently. -/
  prev : Option Nat := none
  /-- The slot of the entry used next less recently. -/
  next : Option Nat := none
deriving Repr, DecidableEq

/-- A bounded store that evicts the entry used least recently. -/
structure Segment (κ ν : Type) where
  /-- The greatest number of entries. -/
  capacity : Nat
  /-- The slot of each key. -/
  index : List (κ × Nat) := []
  /-- The slots. -/
  nodes : Array (Option (Segment.Node κ ν)) := #[]
  /-- The vacant slots, the one vacated last first. -/
  free : List Nat := []
  /-- The slot of the entry used last. -/
  head : Option Nat := none
  /-- The slot of the entry used least recently. -/
  tail : Option Nat := none
deriving Repr, DecidableEq

namespace Segment

variable {κ ν : Type}

/-- The segment without entries. -/
def empty (capacity : Nat) : Segment κ ν := { capacity }

instance : Inhabited (Segment κ ν) := ⟨empty 0⟩

/-- The number of entries. -/
def size (s : Segment κ ν) : Nat := s.index.length

/-- The entry in a slot. -/
def node? (s : Segment κ ν) (slot : Nat) : Option (Node κ ν) :=
  s.nodes[slot]?.join

/-- Changes the entry in a slot, if there is one. -/
def modifyNode (s : Segment κ ν) (slot : Nat) (f : Node κ ν → Node κ ν) : Segment κ ν :=
  { s with nodes := s.nodes.modify slot (Option.map f) }

/-- Lets the entry behind `slot`, or else the tail of the chain, be followed backwards by `prev`. -/
def linkBack (s : Segment κ ν) (slot prev : Option Nat) : Segment κ ν :=
  match slot with
  | some slot => s.modifyNode slot fun node => { node with prev }
  | none => { s with tail := prev }

/-- Lets the entry before `slot`, or else the head of the chain, be followed by `next`. -/
def linkForth (s : Segment κ ν) (slot next : Option Nat) : Segment κ ν :=
  match slot with
  | some slot => s.modifyNode slot fun node => { node with next }
  | none => { s with head := next }

/-- Takes the entry of a slot out of the chain; it stays in its slot. -/
def unlink (s : Segment κ ν) (slot : Nat) : Segment κ ν :=
  match s.node? slot with
  | none => s
  | some node =>
    let s := s.linkForth node.prev node.next
    let s := s.linkBack node.next node.prev
    s.modifyNode slot fun node => { node with prev := none, next := none }

/-- Puts the entry of a slot at the head of the chain. -/
def linkFront (s : Segment κ ν) (slot : Nat) : Segment κ ν :=
  let front := s.head
  let s := s.modifyNode slot fun node => { node with prev := none, next := front }
  let s := match front with
    | some first => s.modifyNode first fun node => { node with prev := some slot }
    | none => s
  { s with head := some slot, tail := s.tail.or (some slot) }

/-- Makes the entry of a slot the one used last. -/
def promote (s : Segment κ ν) (slot : Nat) : Segment κ ν :=
  if s.head = some slot then s else (s.unlink slot).linkFront slot

section Keyed

variable [DecidableEq κ]

/-- The slot of a key. -/
def slot? (s : Segment κ ν) (key : κ) : Option Nat := s.index.lookup key

/-- Removes the entry of a slot and leaves the slot vacant. -/
def take (s : Segment κ ν) (slot : Nat) : Option (Node κ ν) × Segment κ ν :=
  let s := s.unlink slot
  match s.node? slot with
  | none => (none, s)
  | some node =>
    (some node,
      { s with
        nodes := s.nodes.modify slot fun _ => none
        index := s.index.filter fun entry => entry.1 ≠ node.key
        free := slot :: s.free })

/-- Removes the entry used least recently and says whether there was one. -/
def evictTail (s : Segment κ ν) : Bool × Segment κ ν :=
  match s.tail with
  | none => (false, s)
  | some slot =>
    let (node, s) := s.take slot
    (node.isSome, s)

/-- The value of a key, which becomes the one used last. -/
def get (s : Segment κ ν) (key : κ) : Option ν × Segment κ ν :=
  match s.slot? key with
  | none => (none, s)
  | some slot =>
    let s := s.promote slot
    ((s.node? slot).map (·.value), s)

/-- The value of a key; nothing changes. -/
def peek? (s : Segment κ ν) (key : κ) : Option ν :=
  (s.slot? key).bind fun slot => (s.node? slot).map (·.value)

/-- Whether the key is there; nothing changes. -/
def contains (s : Segment κ ν) (key : κ) : Bool :=
  (s.slot? key).isSome

/-- What an insertion did. -/
inductive Insertion (ν : Type) where
  /-- The key was new; another entry may have had to go. -/
  | added (evicted : Bool)
  /-- The value of the key was replaced. -/
  | replaced
  /-- The key was there and kept this value. -/
  | kept (value : ν)
deriving Repr, DecidableEq

/-- Puts an entry into a vacant slot, or else into a new one, and at the head of the chain. -/
def occupy (s : Segment κ ν) (key : κ) (value : ν) : Segment κ ν :=
  let node : Node κ ν := { key, value }
  match s.free with
  | slot :: free =>
    let s := { s with nodes := s.nodes.modify slot fun _ => some node, free }
    { s with index := (key, slot) :: s.index }.linkFront slot
  | [] =>
    let slot := s.nodes.size
    let s := { s with nodes := s.nodes.push (some node) }
    { s with index := (key, slot) :: s.index }.linkFront slot

/-- Puts a value under a key. A key that is there keeps its value and its place in the chain, unless
`update` says to replace the value and to make it the one used last. -/
def insert (s : Segment κ ν) (key : κ) (value : ν) (update : Bool) : Insertion ν × Segment κ ν :=
  match s.slot? key with
  | some slot =>
    if update then
      (.replaced, (s.modifyNode slot fun node => { node with value }).promote slot)
    else
      (.kept (((s.node? slot).map (·.value)).getD value), s)
  | none =>
    let (evicted, s) := if s.capacity ≤ s.size then s.evictTail else (false, s)
    (.added evicted, s.occupy key value)

/-- Removes a key and gives back its value. -/
def remove (s : Segment κ ν) (key : κ) : Option ν × Segment κ ν :=
  match s.slot? key with
  | none => (none, s)
  | some slot =>
    let (node, s) := s.take slot
    (node.map (·.value), s)

/-- The segment with all entries dropped. -/
def cleared (s : Segment κ ν) : Segment κ ν := empty s.capacity

end Keyed

/-- The entries met in at most `fuel` steps along the chain. -/
def follow (s : Segment κ ν) : Nat → Option Nat → List (Node κ ν)
  | 0, _ | _, none => []
  | fuel + 1, some slot =>
    match s.node? slot with
    | none => []
    | some node => node :: s.follow fuel node.next

/-- The entries from the most to the least recently used. The chain meets no slot twice, so that as
many steps as there are slots suffice. -/
def chain (s : Segment κ ν) : List (Node κ ν) :=
  s.follow s.nodes.size s.head

/-- The keys from the most to the least recently used. -/
def keys (s : Segment κ ν) : List κ :=
  s.chain.map (·.key)

end Segment

end EvidenceFlow
