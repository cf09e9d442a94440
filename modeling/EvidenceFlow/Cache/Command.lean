import EvidenceFlow.Cache.Lru
import EvidenceFlow.Cache.Recency

/-!
# Uses of stores

A use of a store, and what the store answers. Segmented stores and recency lists understand the same
uses, so that runs of the two can be compared answer by answer.
-/

namespace EvidenceFlow

/-- A use of a store. -/
inductive StoreCommand (κ ν : Type) where
  /-- Looks a key up. -/
  | get (key : κ)
  /-- Puts a value under a key. -/
  | put (key : κ) (value : ν)
  /-- Puts a value under a key that is not there. -/
  | putIfAbsent (key : κ) (value : ν)
  /-- Removes a key. -/
  | remove (key : κ)
  /-- Asks whether a key is there. -/
  | contains (key : κ)
  /-- Drops everything. -/
  | reset
  /-- Asks for the number of entries. -/
  | size
  /-- Asks for the keys of a segment from the most to the least recently used. -/
  | keys (segment : Nat)
deriving Repr, DecidableEq

namespace StoreCommand

variable {κ ν : Type}

/-- The key that the command is about, if it is about one. -/
def key? : StoreCommand κ ν → Option κ
  | get key | put key _ | putIfAbsent key _ | remove key | contains key => some key
  | reset | size | keys _ => none

end StoreCommand

/-- What a store answers. -/
inductive StoreAnswer (κ ν : Type) where
  /-- What was found or removed. -/
  | found (value : Option ν)
  /-- What the key holds now. -/
  | held (value : ν)
  /-- Whether the key is there. -/
  | truth (there : Bool)
  /-- A number of entries. -/
  | count (n : Nat)
  /-- Keys from the most to the least recently used. -/
  | keys (keys : List κ)
  /-- Nothing but that it is done. -/
  | done
deriving Repr, DecidableEq

/-- Answers uses one after the other. -/
def answers {κ ν σ : Type} (answer : StoreCommand κ ν → σ → StoreAnswer κ ν × σ) :
    List (StoreCommand κ ν) → σ → List (StoreAnswer κ ν) × σ
  | [], store => ([], store)
  | command :: rest, store =>
    let (first, store) := answer command store
    let (later, store) := answers answer rest store
    (first :: later, store)

variable {κ ν : Type} [DecidableEq κ]

/-- What a segmented store answers, and the store then. -/
def Lru.answer (command : StoreCommand κ ν) (c : Lru κ ν) : StoreAnswer κ ν × Lru κ ν :=
  match command with
  | .get key => let (found, c) := c.get key; (.found found, c)
  | .put key value => (.done, c.put key value)
  | .putIfAbsent key value => let (held, c) := c.putIfAbsent key value; (.held held, c)
  | .remove key => let (found, c) := c.remove key; (.found found, c)
  | .contains key => (.truth (c.contains key), c)
  | .reset => (.done, c.reset)
  | .size => (.count c.size, c)
  | .keys segment => (.keys (c.segmentKeys segment), c)

/-- What a recency list answers that takes itself for the only segment of a store, and the list then;
`update` says whether values that are there are replaced. -/
def Recency.answer (update : Bool) (command : StoreCommand κ ν) (r : Recency κ ν) :
    StoreAnswer κ ν × Recency κ ν :=
  match command with
  | .get key => let (found, r) := r.get key; (.found found, r)
  | .put key value => (.done, r.put update key value)
  | .putIfAbsent key value => let (held, r) := r.putIfAbsent key value; (.held held, r)
  | .remove key => let (found, r) := r.remove key; (.found found, r)
  | .contains key => (.truth (r.contains key), r)
  | .reset => (.done, r.cleared)
  | .size => (.count r.size, r)
  | .keys segment => (.keys (if segment = 0 then r.keys else []), r)

end EvidenceFlow
