import EvidenceFlow.Proofs.Engine.Process
import EvidenceFlow.Proofs.Engine.ResultStore

/-!
# Results that are kept

As long as the store of a determined engine holds nothing but what the engine leaves, it makes no
difference to a flow whether a result is found or computed. A result that is found costs no call, and a
result that is computed is found from then on unless something is pushed out of the store.
-/

namespace EvidenceFlow

variable {υ : Type}

/-- What an engine leaves for a fingerprint without failing. -/
def Engine.IsResult (engine : Engine υ) (outcome : Fingerprint → Outcome) (key : Fingerprint)
    (a : Aspect) : Prop :=
  (outcome key).result = .ok () ∧ a = engine.made (outcome key)

namespace EngineElement

/-- All that the store of an element holds under a fingerprint is as it should be. -/
def Stores (e : EngineElement υ) (good : Fingerprint → Aspect → Prop) (shared : Shared υ) : Prop :=
  ∀ store, shared.results.lookup e.number = some store → store.Keeps good

/-- The store of an element holds nothing but what its engine leaves. -/
def Stocked (e : EngineElement υ) (outcome : Fingerprint → Outcome) (shared : Shared υ) : Prop :=
  e.Stores (e.engine.IsResult outcome) shared

/-- The engine has been called at most once more than at first for each fingerprint, and only for those
under which a result is held; unless something has been pushed out of the store. -/
def Thrifty (e : EngineElement υ) (log : υ → Nat → List Fingerprint) (first : Fingerprint → Nat)
    (shared : Shared υ) : Prop :=
  ∀ filter cache, shared.results.lookup e.number = some { filter, store := .lru cache } →
    cache.evictions = 0 →
      ∀ key, (log shared.user e.number).count key ≤
        first key + if (cache.peek? key).isSome then 1 else 0

variable {e : EngineElement υ} {outcome : Fingerprint → Outcome} {shared : Shared υ}

/-- A look-up leaves the stores of other elements alone. -/
theorem results_lookIn_of_ne (e : EngineElement υ) (key : Option Fingerprint) (shared : Shared υ)
    {number : Nat} (h : number ≠ e.number) :
    (e.lookIn key shared).2.results.lookup number = shared.results.lookup number := by
  unfold lookIn
  split
  · exact (Table.lookup_put _ _ _ _).trans (if_neg h)
  · rfl

/-- A result that is kept leaves the stores of other elements alone. -/
theorem results_keepIn_of_ne (e : EngineElement υ) (key : Option Fingerprint) (a : Aspect)
    (shared : Shared υ) {number : Nat} (h : number ≠ e.number) :
    (e.keepIn key a shared).results.lookup number = shared.results.lookup number := by
  unfold keepIn
  split
  · exact (Table.lookup_put _ _ _ _).trans (if_neg h)
  · rfl

/-- The store after a look-up. -/
theorem results_lookIn (e : EngineElement υ) (key : Fingerprint) (shared : Shared υ) :
    (e.lookIn (some key) shared).2.results.lookup e.number =
      (shared.results.lookup e.number).map fun store => (store.get key).2 := by
  unfold lookIn
  cases hstore : shared.results.lookup e.number with
  | none => exact hstore
  | some store => exact (Table.lookup_put _ _ _ _).trans (if_pos rfl)

/-- A segmented store that a look-up leaves is what the look-up makes of the one before. -/
theorem exists_lru_of_lookIn {key : Fingerprint} {filter : Filter} {cache : Lru Fingerprint Aspect}
    (hcache : (e.lookIn (some key) shared).2.results.lookup e.number =
      some { filter, store := .lru cache }) :
    ∃ before, shared.results.lookup e.number = some { filter, store := .lru before } ∧
      cache = (before.get key).2 := by
  rw [results_lookIn] at hcache
  obtain ⟨⟨_, store⟩, hbefore, hget⟩ := Option.map_eq_some_iff.mp hcache
  cases store with
  | foreign => cases hget
  | lru before =>
    rw [KeyedStore.get_lru] at hget
    cases hget
    exact ⟨before, hbefore, rfl⟩

/-- The store after a result has been kept. -/
theorem results_keepIn (e : EngineElement υ) (key : Fingerprint) (a : Aspect) (shared : Shared υ) :
    (e.keepIn (some key) a shared).results.lookup e.number =
      (shared.results.lookup e.number).map fun store => store.put key a.snapshot := by
  unfold keepIn
  cases hstore : shared.results.lookup e.number with
  | none => exact hstore
  | some store => exact (Table.lookup_put _ _ _ _).trans (if_pos rfl)

namespace Stores

variable {good : Fingerprint → Aspect → Prop}

/-- A look-up finds what is as it should be, and changes nothing that is held. -/
theorem lookIn (h : e.Stores good shared) (key : Option Fingerprint) :
    (∀ a, (e.lookIn key shared).1 = .value a → ∀ k, key = some k → good k a) ∧
      e.Stores good (e.lookIn key shared).2 := by
  cases key with
  | none => exact ⟨fun a ha => (nomatch ha), h⟩
  | some key =>
    refine ⟨?_, ?_⟩
    · rintro a ha k ⟨⟩
      unfold EngineElement.lookIn at ha
      cases hstore : shared.results.lookup e.number with
      | none =>
        rw [hstore] at ha
        cases ha
      | some store =>
        rw [hstore] at ha
        exact ((h store hstore).get key).1 a ha
    · intro store hstore
      rw [results_lookIn] at hstore
      obtain ⟨before, hbefore, rfl⟩ := Option.map_eq_some_iff.mp hstore
      exact ((h before hbefore).get key).2

/-- A result that is as it should be can be kept. -/
theorem keepIn (h : e.Stores good shared) {key : Fingerprint} {a : Aspect}
    (ha : good key a.snapshot) : e.Stores good (e.keepIn (some key) a shared) := by
  intro store hstore
  rw [results_keepIn] at hstore
  obtain ⟨before, hbefore, rfl⟩ := Option.map_eq_some_iff.mp hstore
  exact (h before hbefore).put ha

/-- Only the store of the element matters. -/
theorem congr (h : e.Stores good shared) {other : Shared υ}
    (hsame : other.results.lookup e.number = shared.results.lookup e.number) :
    e.Stores good other := by
  intro store hstore
  rw [hsame] at hstore
  exact h store hstore

/-- Elements of one number share their store. -/
theorem of_number (h : e.Stores good shared) {other : EngineElement υ}
    (hsame : other.number = e.number) : other.Stores good shared := by
  intro store hstore
  rw [hsame] at hstore
  exact h store hstore

end Stores

/-- What the engine leaves can be kept. -/
theorem Stocked.keepIn (h : e.Stocked outcome shared) {key : Fingerprint}
    (hok : (outcome key).result = .ok ()) :
    e.Stocked outcome (e.keepIn (some key) (e.engine.made (outcome key)) shared) := by
  apply Stores.keepIn h
  rw [Engine.snapshot_made]
  exact ⟨hok, rfl⟩

namespace Thrifty

variable {log : υ → Nat → List Fingerprint} {first : Fingerprint → Nat}

/-- Only the store of the element and its part of the log matter. -/
theorem congr (h : e.Thrifty log first shared) {other : Shared υ}
    (hresults : other.results.lookup e.number = shared.results.lookup e.number)
    (hlog : log other.user e.number = log shared.user e.number) : e.Thrifty log first other := by
  intro filter cache hcache hroom key
  rw [hresults] at hcache
  rw [hlog]
  exact h filter cache hcache hroom key

/-- A look-up costs no call. -/
theorem lookIn (h : e.Thrifty log first shared) (hs : e.Stocked outcome shared)
    (key : Fingerprint) : e.Thrifty log first (e.lookIn (some key) shared).2 := by
  intro filter cache hcache hroom other
  obtain ⟨before, hbefore, rfl⟩ := exists_lru_of_lookIn hcache
  rw [Lru.evictions_get] at hroom
  rw [user_lookIn, (hs _ hbefore before rfl).sound.peek?_get]
  exact h filter before hbefore hroom other

/-- A call whose result is kept is the first one for its fingerprint, if no result was held. -/
theorem keepIn (h : e.Thrifty log first shared) (hs : e.Stocked outcome shared)
    {key : Fingerprint} (a : Aspect)
    (hmiss : ∀ filter cache, shared.results.lookup e.number = some { filter, store := .lru cache } →
      cache.peek? key = none) {user : υ}
    (hlog : log user e.number = log shared.user e.number ++ [key]) :
    e.Thrifty log first (e.keepIn (some key) a { shared with user }) := by
  intro filter cache hcache hroom other
  rw [results_keepIn] at hcache
  obtain ⟨⟨own, store⟩, hbefore, hput⟩ := Option.map_eq_some_iff.mp hcache
  cases store with
  | foreign => cases hput
  | lru before =>
    cases hput
    have hsound := (hs _ hbefore before rfl).sound
    have hle := before.evictions_le_inserted key a.snapshot before.updateExisting
    rw [Lru.put_eq_inserted] at hroom ⊢
    have hbound := h own before hbefore (by omega) other
    rw [user_keepIn, hlog, List.count_append, List.count_singleton]
    by_cases hsame : other = key
    · subst hsame
      rw [hmiss own before hbefore] at hbound
      rw [hsound.peek?_inserted_self]
      simp only [Option.isSome_none, Option.isSome_some, Bool.false_eq_true, if_true, if_false,
        beq_self_eq_true] at hbound ⊢
      omega
    · have hne : (key == other) = false := beq_false_of_ne (Ne.symm hsame)
      rw [hne]
      rcases hsound.peek?_inserted_of_ne hsame a.snapshot before.updateExisting with hkept | ⟨hlt, -⟩
      · rw [hkept]
        simpa using hbound
      · omega

end Thrifty

/-- A look-up that finds no result in a segmented store finds nothing held. -/
theorem peek?_of_lookIn (hs : e.Stocked outcome shared) {key : Fingerprint}
    (hmiss : ∀ result, (e.lookIn (some key) shared).1 ≠ .value result) (filter : Filter)
    (cache : Lru Fingerprint Aspect)
    (hcache : (e.lookIn (some key) shared).2.results.lookup e.number =
      some { filter, store := .lru cache }) : cache.peek? key = none := by
  obtain ⟨before, hbefore, rfl⟩ := exists_lru_of_lookIn hcache
  have hsound := (hs _ hbefore before rfl).sound
  rw [hsound.peek?_get]
  cases hheld : before.peek? key with
  | none => rfl
  | some result =>
    exfalso
    apply hmiss result
    unfold EngineElement.lookIn
    rw [hbefore]
    simp only
    rw [KeyedStore.get_lru, hsound.get_fst, hheld]
    rfl

/-- What must hold of stores and log holds on once the engine has dealt with a flow. -/
structure Carries (e : EngineElement υ) (outcome : Fingerprint → Outcome)
    (shared after : Shared υ) : Prop where
  /-- The store holds what the engine leaves. -/
  stocked : e.Stocked outcome after
  /-- Stores of other elements are left alone. -/
  others : ∀ number, number ≠ e.number →
    after.results.lookup number = shared.results.lookup number
  /-- Other engines are not called. -/
  silent : ∀ log, e.engine.Logs log e.number → ∀ number, number ≠ e.number →
    log after.user number = log shared.user number
  /-- An engine that never fails is not called again for a result that is held. -/
  thrifty : ∀ log, e.engine.Logs log e.number → e.cached = true →
    (∀ key, (outcome key).result = .ok ()) →
      ∀ first, e.Thrifty log first shared → e.Thrifty log first after

/-- A result that is found is what the engine would have left. -/
theorem process_of_found (hs : e.Stocked outcome shared) {flow : Flow} {a : Aspect}
    (hnone : flow.datum? e.engine.key = none)
    (hfound : (e.lookIn (e.keyOf flow) shared).1 = .value a) :
    e.process.runOn { flow, shared } =
        ((outcome (.ofEvidence e.engine.filter flow.evidence)).ended,
          { flow := flow.fill e.engine.key
              (e.engine.made (outcome (.ofEvidence e.engine.filter flow.evidence)))
            shared := (e.lookIn (e.keyOf flow) shared).2 }) ∧
      e.Carries outcome shared (e.lookIn (e.keyOf flow) shared).2 := by
  obtain ⟨hgood, hlooked⟩ := Stores.lookIn hs (e.keyOf flow)
  obtain ⟨key, hkey⟩ := exists_key_of_found hfound
  obtain ⟨hok, rfl⟩ := hgood a hfound key hkey
  constructor
  · have hmerged := e.engine.merge_snapshot_made (outcome key)
    rw [Engine.snapshot_made] at hmerged
    rw [runOn_process_of_hit hnone hfound, hmerged, ← (keyOf_eq_some hkey).2, Outcome.ended, hok]
    rfl
  · refine ⟨hlooked, fun number hne => e.results_lookIn_of_ne _ _ hne, ?_, ?_⟩
    · intro log _ number _
      rw [user_lookIn]
    · intro log _ _ _ first hthrifty
      rw [hkey]
      exact hthrifty.lookIn hs key

/-- Without a result the engine is called, and its result is kept if it succeeds. -/
theorem process_of_missing (hdirect : e.dispatch = none)
    (hdetermined : e.engine.Determined outcome) (hs : e.Stocked outcome shared) {flow : Flow}
    (hnone : flow.datum? e.engine.key = none)
    (hmiss : ∀ a, (e.lookIn (e.keyOf flow) shared).1 ≠ .value a) :
    ∃ after : Shared υ,
      e.process.runOn { flow, shared } =
        ((outcome (.ofEvidence e.engine.filter flow.evidence)).ended,
          { flow := flow.fill e.engine.key
              (e.engine.made (outcome (.ofEvidence e.engine.filter flow.evidence)))
            shared := after }) ∧
      e.Carries outcome shared after := by
  obtain ⟨-, hlooked⟩ := Stores.lookIn hs (e.keyOf flow)
  obtain ⟨user, hlog, hcompute⟩ := runOn_compute_of_determined hdirect hdetermined (e.keyOf flow)
    (e.lookIn (e.keyOf flow) shared).2 hnone
  have hcalled : e.Stocked outcome { (e.lookIn (e.keyOf flow) shared).2 with user } :=
    Stores.congr hlooked rfl
  refine ⟨_, (runOn_process_of_miss hmiss).trans hcompute, ?_, ?_, ?_, ?_⟩
  · split
    · next hsucceeded =>
      cases hkey : e.keyOf flow with
      | none => rwa [hkey] at hcalled
      | some key =>
        have hok : (outcome key).result = .ok () := by
          rw [(keyOf_eq_some hkey).2]
          cases hresult : (outcome (.ofEvidence e.engine.filter flow.evidence)).result with
          | ok _ => rfl
          | error fault =>
            rw [hresult] at hsucceeded
            cases hsucceeded
        rw [hkey] at hcalled
        rw [← (keyOf_eq_some hkey).2]
        exact hcalled.keepIn hok
    · exact hcalled
  · intro number hne
    split
    · exact (e.results_keepIn_of_ne _ _ _ hne).trans (e.results_lookIn_of_ne _ _ hne)
    · exact e.results_lookIn_of_ne _ _ hne
  · intro log hlogs number hne
    have hother : log user number = log shared.user number := by
      rw [hlog log hlogs, Function.update_of_ne hne, user_lookIn]
    split
    · rw [user_keepIn, hother]
    · exact hother
  · intro log hlogs hcached hok first hthrifty
    have hkey : e.keyOf flow = some (.ofEvidence e.engine.filter flow.evidence) := by
      rw [keyOf, if_pos hcached]
    have hnoted := hlog log hlogs
    rw [hkey] at hlooked hmiss ⊢
    rw [if_pos (by rw [hok]; rfl)]
    apply (hthrifty.lookIn hs _).keepIn hlooked _ (peek?_of_lookIn hs hmiss)
    rw [hnoted, Function.update_self, user_lookIn, user_lookIn]

/-- A determined engine ends as its outcome says and leaves a new object with its writes, whether the
result is found or computed; and what must hold of stores and log holds on. -/
theorem process_of_determined (hdirect : e.dispatch = none)
    (hdetermined : e.engine.Determined outcome) (hs : e.Stocked outcome shared) {flow : Flow}
    (hnone : flow.datum? e.engine.key = none) :
    ∃ after : Shared υ,
      e.process.runOn { flow, shared } =
        ((outcome (.ofEvidence e.engine.filter flow.evidence)).ended,
          { flow := flow.fill e.engine.key
              (e.engine.made (outcome (.ofEvidence e.engine.filter flow.evidence)))
            shared := after }) ∧
      e.Carries outcome shared after := by
  by_cases hhit : ∃ a, (e.lookIn (e.keyOf flow) shared).1 = .value a
  · obtain ⟨a, hfound⟩ := hhit
    exact ⟨_, process_of_found hs hnone hfound⟩
  · have hmiss : ∀ a, (e.lookIn (e.keyOf flow) shared).1 ≠ .value a := by
      intro a hfound
      exact hhit ⟨a, hfound⟩
    exact process_of_missing hdirect hdetermined hs hnone hmiss

end EngineElement

end EvidenceFlow
