import EvidenceFlow.Cache.Lru
import EvidenceFlow.Fingerprint
import EvidenceFlow.Settings.Cache
import EvidenceFlow.Table
import EvidenceFlow.Text.Order

/-!
# Stores by fingerprint

Values of one kind under the fingerprints that a filter takes of evidence. What holds the values is
built by name: a segmented store unless something else is registered. A registered store may turn out
to hold values of a foreign kind, which are found and cannot be used. Where a segmented store places a
fingerprint is up to the host that it is made on.
-/

namespace EvidenceFlow

open Text

/-- What holds the values. -/
inductive Store (ν : Type) where
  /-- A segmented store. -/
  | lru (cache : Lru Fingerprint ν)
  /-- A store in which every look-up finds a value of a foreign kind, and which keeps nothing. -/
  | foreign

/-- What a look-up finds. -/
inductive Found (ν : Type) where
  /-- Nothing. -/
  | nothing
  /-- A value. -/
  | value (v : ν)
  /-- A value of a foreign kind. -/
  | foreign
deriving Repr, DecidableEq

/-- What a store finds where it is made. -/
structure Host where
  /-- The number of processors. -/
  processors : Nat
  /-- The number by which a fingerprint is placed in a segment. -/
  place : Fingerprint → Nat

namespace Store

variable {ν : Type}

/-- The segmented store that the settings describe, if they are valid. -/
def ofSettings (host : Host) (settings : LruSettings) : Except Fault (Store ν) := do
  return .lru (← Lru.make host.place settings)

/-- Looks a fingerprint up. -/
def get (key : Fingerprint) : Store ν → Found ν × Store ν
  | lru cache =>
    match cache.get key with
    | (some v, cache) => (.value v, lru cache)
    | (none, cache) => (.nothing, lru cache)
  | foreign => (.foreign, foreign)

/-- Puts a value under a fingerprint. -/
def put (key : Fingerprint) (v : ν) : Store ν → Store ν
  | lru cache => lru (cache.put key v)
  | foreign => foreign

/-- Removes a fingerprint and gives back its value. -/
def remove (key : Fingerprint) : Store ν → Option ν × Store ν
  | lru cache =>
    let (held, cache) := cache.remove key
    (held, lru cache)
  | foreign => (none, foreign)

/-- The number of entries. -/
def size : Store ν → Nat
  | lru cache => cache.size
  | foreign => 0

/-- The counts. -/
def stats : Store ν → CacheStats
  | lru cache => cache.stats
  | foreign => {}

/-- The store with everything dropped. -/
def reset : Store ν → Store ν
  | lru cache => lru cache.reset
  | foreign => foreign

end Store

/-- A store under the fingerprints of a filter. -/
structure KeyedStore (ν : Type) where
  /-- What of the evidence makes up the fingerprints. -/
  filter : Filter
  /-- What holds the values. -/
  store : Store ν

namespace KeyedStore

variable {ν : Type}

/-- The segmented store that the settings describe, if they are valid. -/
def lru (host : Host) (settings : CacheSettings) (filter : Filter) : Except Fault (KeyedStore ν) := do
  settings.validate host.processors
  return { filter, store := ← Store.ofSettings host (settings.lru host.processors) }

/-- The fingerprint of evidence. -/
def keyFor (c : KeyedStore ν) (evidence : Evidence) : Fingerprint :=
  .ofEvidence c.filter evidence

/-- Looks a fingerprint up. -/
def get (c : KeyedStore ν) (key : Fingerprint) : Found ν × KeyedStore ν :=
  let (found, store) := c.store.get key
  (found, { c with store })

/-- Puts a value under a fingerprint. -/
def put (c : KeyedStore ν) (key : Fingerprint) (v : ν) : KeyedStore ν :=
  { c with store := c.store.put key v }

/-- Removes a fingerprint and gives back its value. -/
def remove (c : KeyedStore ν) (key : Fingerprint) : Option ν × KeyedStore ν :=
  let (held, store) := c.store.remove key
  (held, { c with store })

/-- The number of entries. -/
def size (c : KeyedStore ν) : Nat := c.store.size

/-- The counts. -/
def stats (c : KeyedStore ν) : CacheStats := c.store.stats

/-- The store with everything dropped. -/
def reset (c : KeyedStore ν) : KeyedStore ν := { c with store := c.store.reset }

/-- How the store is shown. -/
def shown (c : KeyedStore ν) : String :=
  shownRecord "DataKeyedCache" [("entries", toString c.size), ("filter", c.filter.shown)]

end KeyedStore

/-- What builds a store from settings. -/
inductive Builder where
  /-- The segmented store of the settings. -/
  | lru
  /-- The store of the settings in one segment, perhaps with room of its own. -/
  | oneSegment (capacity : Option Nat)
  /-- A store that holds values of a foreign kind. -/
  | foreign
  /-- Nothing: the building fails. -/
  | failing (fault : Fault)

namespace Builder

/-- Builds a store. -/
def build {ν : Type} (host : Host) (settings : CacheSettings) : Builder → Except Fault (Store ν)
  | lru => Store.ofSettings host (settings.lru host.processors)
  | oneSegment capacity =>
    let settings := settings.lru host.processors
    Store.ofSettings host
      { settings with concurrency := 1, capacity := capacity.getD settings.capacity }
  | foreign => .ok .foreign
  | failing fault => .error fault

end Builder

/-- Builders by name in lower case, each name once. -/
structure Builders where
  /-- The builders; one for segmented stores is there from the start. -/
  entries : Table String Builder := [("lru", .lru)]

namespace Builders

/-- Registers a builder, in the place of one that has the name. -/
def register (builders : Builders) (name : String) (builder : Builder) : Builders :=
  ⟨builders.entries.put (lowercase name) builder⟩

/-- The registered names. -/
def names (builders : Builders) : List String :=
  builders.entries.keys

/-- The registered names among the given ones, in ascending order. -/
def namesAmong (builders : Builders) (given : List String) : List String :=
  ascending (builders.names.filter given.contains)

/-- Builds a store by the name in the settings, if they are valid. -/
def build {ν : Type} (builders : Builders) (host : Host) (settings : CacheSettings) (filter : Filter) :
    Except Fault (KeyedStore ν) := do
  settings.validate host.processors
  let name := lowercase settings.builder
  match builders.entries.lookup name with
  | none => throw (.setting (.unknownBuilder name))
  | some builder => return { filter, store := ← builder.build host settings }

end Builders

end EvidenceFlow
