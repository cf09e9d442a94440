import EvidenceFlow.Cache.Keyed
import EvidenceFlow.Proofs.Cache.LruValues

/-!
# What stores of results hold

Whatever has been put into a store of results and looked up since it was built, it holds nothing under a
fingerprint but what was put there.
-/

namespace EvidenceFlow

variable {ν : Type}

/-- A host with eight processors that places fingerprints by the number of their parts. -/
def Host.bySize : Host := { processors := 8, place := Fingerprint.size }

/-- What is built in two steps is built if both steps succeed. -/
theorem exists_of_bind_eq_ok {ε α β : Type} {x : Except ε α} {f : α → Except ε β} {b : β}
    (h : x >>= f = .ok b) : ∃ a, x = .ok a ∧ f a = .ok b := by
  cases x with
  | error e => cases h
  | ok a => exact ⟨a, rfl, h⟩

/-- All that a segmented store holds under a fingerprint is as it should be. -/
structure Lru.Keeps (cache : Lru Fingerprint ν) (good : Fingerprint → ν → Prop) : Prop where
  /-- The segments stand for lists. -/
  sound : cache.Sound
  /-- What is held is as it should be. -/
  good : ∀ key v, cache.peek? key = some v → good key v

namespace Lru.Keeps

variable {cache : Lru Fingerprint ν} {good : Fingerprint → ν → Prop}

/-- A fresh store holds nothing. -/
theorem make {settings : LruSettings} {place : Fingerprint → Nat}
    (h : Lru.make place settings = .ok cache) : cache.Keeps good := by
  obtain ⟨⟨⟩, hvalid, h⟩ := exists_of_bind_eq_ok h
  cases h
  refine ⟨.ofSettings place hvalid, ?_⟩
  intro key v hv
  rw [Lru.peek?_ofSettings place hvalid] at hv
  cases hv

/-- A look-up finds what is as it should be, and changes nothing that is held. -/
theorem get (h : cache.Keeps good) (key : Fingerprint) :
    (∀ v, (cache.get key).1 = some v → good key v) ∧ (cache.get key).2.Keeps good := by
  refine ⟨?_, h.sound.answer (.get key), ?_⟩
  · intro v hv
    rw [h.sound.get_fst] at hv
    exact h.good key v hv
  · intro other v hv
    rw [h.sound.peek?_get] at hv
    exact h.good other v hv

/-- A value that is as it should be can be put there. -/
theorem put (h : cache.Keeps good) {key : Fingerprint} {v : ν} (hv : good key v) :
    (cache.put key v).Keeps good := by
  refine ⟨h.sound.answer (.put key v), ?_⟩
  intro other w hw
  rw [Lru.put_eq_inserted] at hw
  by_cases hsame : other = key
  · subst hsame
    rw [h.sound.peek?_inserted_self] at hw
    cases hheld : cache.peek? other with
    | none =>
      rw [hheld, Option.getD_none, ite_self] at hw
      rwa [← Option.some.inj hw]
    | some held =>
      rw [hheld, Option.getD_some] at hw
      split at hw
      · rwa [← Option.some.inj hw]
      · rw [← Option.some.inj hw]
        exact h.good other held hheld
  · rcases h.sound.peek?_inserted_of_ne hsame v cache.updateExisting with hkept | ⟨-, hgone⟩
    · rw [hkept] at hw
      exact h.good other w hw
    · rw [hgone] at hw
      cases hw

end Lru.Keeps

namespace KeyedStore

/-- All that a store holds under a fingerprint is as it should be; values of a foreign kind do not
count. -/
def Keeps (c : KeyedStore ν) (good : Fingerprint → ν → Prop) : Prop :=
  ∀ cache, c.store = .lru cache → cache.Keeps good

/-- Looking a fingerprint up in a segmented store is looking its value up. -/
theorem get_lru (filter : Filter) (cache : Lru Fingerprint ν) (key : Fingerprint) :
    ({ filter, store := .lru cache } : KeyedStore ν).get key =
      (((cache.get key).1.map Found.value).getD .nothing,
        { filter, store := .lru (cache.get key).2 }) := by
  rw [get, Store.get]
  rcases cache.get key with ⟨_ | v, cache'⟩ <;> rfl

/-- A value that is put under a fingerprint that holds nothing is found. -/
theorem get_put_self {cache : Lru Fingerprint ν} (h : cache.Sound) {key : Fingerprint}
    (hnone : cache.peek? key = none) (filter : Filter) (v : ν) :
    ((({ filter, store := .lru cache } : KeyedStore ν).put key v).get key).1 = .value v := by
  have hsound : (cache.put key v).Sound := h.answer (.put key v)
  change (({ filter, store := .lru (cache.put key v) } : KeyedStore ν).get key).1 = _
  rw [get_lru, hsound.get_fst, Lru.put_eq_inserted, h.peek?_inserted_self, hnone]
  simp

variable {c : KeyedStore ν} {good : Fingerprint → ν → Prop}

/-- A store that has just been built holds nothing. -/
theorem keeps_of_build {builders : Builders} {host : Host} {settings : CacheSettings} {filter : Filter}
    (h : builders.build host settings filter = .ok c) : c.Keeps good := by
  have hsettings : ∀ {settings : LruSettings} {store : Store ν},
      Store.ofSettings host settings = .ok store → ∀ cache, store = .lru cache → cache.Keeps good := by
    intro settings store hstore cache hcache
    obtain ⟨made, hmade, hstore⟩ := exists_of_bind_eq_ok hstore
    cases hstore
    cases hcache
    exact .make hmade
  obtain ⟨⟨⟩, -, h⟩ := exists_of_bind_eq_ok h
  simp only at h
  split at h
  · cases h
  · next builder hbuilder =>
    obtain ⟨store, hstore, h⟩ := exists_of_bind_eq_ok h
    cases h
    intro cache hcache
    cases builder with
    | lru => exact hsettings hstore cache hcache
    | oneSegment capacity => exact hsettings hstore cache hcache
    | foreign =>
      cases hstore
      cases hcache
    | failing fault => cases hstore

/-- A look-up finds what is as it should be, and changes nothing that is held. -/
theorem Keeps.get (h : c.Keeps good) (key : Fingerprint) :
    (∀ v, (c.get key).1 = .value v → good key v) ∧ (c.get key).2.Keeps good := by
  obtain ⟨filter, store⟩ := c
  cases store with
  | foreign =>
    refine ⟨?_, ?_⟩
    · intro v hv
      cases hv
    · intro cache hcache
      cases hcache
  | lru cache =>
    obtain ⟨hgood, hkeeps⟩ := (h cache rfl).get key
    rw [get_lru]
    refine ⟨?_, ?_⟩
    · intro v hv
      apply hgood v
      cases hfound : (cache.get key).1 with
      | none =>
        rw [hfound] at hv
        cases hv
      | some w =>
        rw [hfound] at hv
        cases hv
        rfl
    · intro cache' hcache'
      cases hcache'
      exact hkeeps

/-- A value that is as it should be can be put there. -/
theorem Keeps.put (h : c.Keeps good) {key : Fingerprint} {v : ν} (hv : good key v) :
    (c.put key v).Keeps good := by
  obtain ⟨filter, store⟩ := c
  cases store with
  | foreign =>
    intro cache hcache
    cases hcache
  | lru cache =>
    intro cache' hcache'
    cases hcache'
    exact (h cache rfl).put hv

end KeyedStore

end EvidenceFlow
