import EvidenceFlow.Proofs.Cache.LoadRuns
import EvidenceFlow.Proofs.Cache.Room

/-!
# Loaders that use the store

While a loader runs, it may change the store in any way, under the key that is being loaded too. A loader
that fails leaves what it did itself, as if nothing had been loaded. If it returns a value, the value comes
into the store unless the loader, or one that it started, has left something under the key: that stands,
and is what the load returns.

Loads are one after the other here, or within one another. Those that overlap are dealt with step by step
elsewhere.
-/

namespace EvidenceFlow

/-! ## New keys -/

namespace Lru

variable {κ ν : Type}

/-- To set the segment that is there changes nothing. -/
theorem setSegment_self (c : Lru κ ν) (key : κ) : c.setSegment key (c.segment key) = c := by
  simp [setSegment, segment]

/-- A value has come into the store under a new key: it is in front of the key's segment, where the entry
used least recently has gone if there was no room, and other segments are as they were. -/
structure PutFirst (c d : Lru κ ν) (key : κ) (value : ν) : Prop where
  /-- The entry is the one used last. -/
  own : d.entriesOf (c.segmentOf key) = (key, value) ::
    if c.Full key then (c.entriesOf (c.segmentOf key)).dropLast else c.entriesOf (c.segmentOf key)
  /-- Other segments do not notice. -/
  others : ∀ i : Nat, i ≠ c.segmentOf key → d.entriesOf i = c.entriesOf i
  /-- What had to go is counted. -/
  evictions : d.evictions = c.evictions + if c.Full key then 1 else 0

/-- There are no entries in a segment that is not there. -/
theorem entriesOf_of_size_le (c : Lru κ ν) {i : Nat} (h : c.segments.size ≤ i) : c.entriesOf i = [] := by
  rw [entriesOf, Array.getElem?_eq_none h, Option.map_none, Option.getD_none]

/-- Whether a value has come first has nothing to do with counts of look-ups. -/
theorem PutFirst.congr {c d e : Lru κ ν} {key : κ} {value : ν} (h : c.PutFirst d key value)
    (halike : e.uncounted = d.uncounted) : c.PutFirst e key value where
  own := (congrArg (·.entriesOf (c.segmentOf key)) halike).trans h.own
  others i hne := (congrArg (·.entriesOf i) halike).trans (h.others i hne)
  evictions := (congrArg (·.evictions) halike).trans h.evictions

variable [DecidableEq κ]

/-- A key that is there keeps its value and its place. -/
theorem inserted_of_present {c : Lru κ ν} {key : κ} {kept : ν} (hpresent : c.peek? key = some kept)
    (value : ν) : c.inserted key value false = c := by
  have hinsertEq : ∃ kept, (c.segment key).insert key value false = (.kept kept, c.segment key) := by
    rw [peek?, Segment.peek?] at hpresent
    rw [Segment.insert]
    cases hslotEq : (c.segment key).slot? key with
    | none => simp [hslotEq] at hpresent
    | some slot => exact ⟨_, rfl⟩
  obtain ⟨kept, hinsertEq⟩ := hinsertEq
  rw [inserted, hinsertEq, setSegment_self]
  rfl

/-- To look up a key that is not there changes nothing but the count. -/
theorem Sound.get_of_absent {c : Lru κ ν} (hsound : c.Sound) {key : κ} (habsent : c.peek? key = none) :
    c.get key = (none, { c with misses := c.misses + 1 }) := by
  have hslotEq : (c.segment key).slot? key = none :=
    Option.isNone_iff_eq_none.mp (Option.isSome_eq_false_iff.mp ((hsound.contains_eq_false_iff key).mpr habsent))
  have hsegmentEq : (c.segment key).get key = (none, c.segment key) := by
    rw [Segment.get, hslotEq]
  rw [get, hsegmentEq]
  simp only [setSegment_self]

/-- A value that is put under a new key comes first. -/
theorem Sound.putFirst_inserted {c : Lru κ ν} (hsound : c.Sound) {key : κ} (habsent : c.peek? key = none)
    (value : ν) (update : Bool) : c.PutFirst (c.inserted key value update) key value := by
  obtain ⟨lists, h⟩ := hsound
  have hafter := h.inserted key value update
  have hsizeEq := (c.inserted_shape key value update).1
  have hputEq : (lists (c.segmentOf key)).put update key value =
      (lists (c.segmentOf key)).push key value := by
    rw [Recency.put, ← h.peek?_eq, habsent]
  rw [hputEq] at hafter
  refine ⟨?_, fun i hne => ?_, ?_⟩
  · rw [hafter.entriesOf_eq (hsizeEq.symm ▸ (c.segmentOf key).isLt), Function.update_self,
      h.entriesOf_eq (c.segmentOf key).isLt, Recency.push]
    simp only [h.full_iff]
  · by_cases hi : i < c.segments.size
    · rw [hafter.entriesOf_eq (hsizeEq.symm ▸ hi), h.entriesOf_eq hi, Function.update_of_ne hne]
    · rw [entriesOf_of_size_le _ (by omega), entriesOf_of_size_le _ (by omega)]
  · rw [h.evictions_inserted_eq]
    simp only [h.full_iff, habsent, true_and]

end Lru

/-! ## Loads of keys that are not there -/

namespace LoadingCache

variable {κ ν ε : Type} [DecidableEq κ] {c : LoadingCache κ ν} {key : κ}

/-- The store as the loader of a key finds it that is not there. -/
def begun (c : LoadingCache κ ν) (key : κ) : LoadingCache κ ν :=
  let entered := (c.get key).2.enter key
  { entered with loads := entered.loads + 1 }

/-- What a load has found out stays what it is until the loader runs. -/
theorem cache_begun (hsound : c.cache.Sound) (habsent : c.cache.peek? key = none) :
    (c.begun key).cache = { c.cache with misses := c.cache.misses + 1 } := by
  rw [begun, cache_enter, get, hsound.get_of_absent habsent]

/-- A load that begins leaves the cache sound. -/
theorem sound_begun (hsound : c.cache.Sound) (habsent : c.cache.peek? key = none) :
    (c.begun key).cache.Sound := by
  obtain ⟨lists, h⟩ := hsound
  rw [cache_begun ⟨lists, h⟩ habsent]
  exact ⟨lists, h.of_segments_eq rfl rfl⟩

/-- A load is counted when its loader begins. -/
theorem loads_begun (c : LoadingCache κ ν) (key : κ) : (c.begun key).loads = c.loads + 1 := by
  rw [begun, loads_enter]
  rfl

/-- A load that begins counts no failure. -/
theorem loadFailures_begun (c : LoadingCache κ ν) (key : κ) :
    (c.begun key).loadFailures = c.loadFailures := by
  rw [begun, loadFailures_enter]
  rfl

/-- For the loader the store is as it was, but that the key is being loaded. -/
theorem alikeBut_begun (hsound : c.cache.Sound) (habsent : c.cache.peek? key = none) :
    AlikeBut key c (c.begun key) where
  uncounted := by
    rw [cache_begun hsound habsent]
    rfl
  inFlight other hne := by
    have hentered : other ∈ (c.begun key).inFlight ↔ other ∈ c.inFlight ∨ other = key := mem_inFlight_enter
    rw [hentered, or_iff_left hne]

/-- A key that is there is not loaded. -/
theorem load_of_present {value : ν} (hsound : c.cache.Sound) (hpresent : c.cache.peek? key = some value)
    (loader : Loader κ ν ε) :
    (c.get key).1 = some value ∧ c.load key loader = (.value value, (c.get key).2) := by
  have hfound : (c.get key).1 = some value := (hsound.get_fst key).trans hpresent
  refine ⟨hfound, ?_⟩
  rw [load]
  rcases hget : c.get key with ⟨answer, after⟩
  rw [hget] at hfound
  obtain rfl : answer = some value := hfound
  rfl

/-- A key that is not there is loaded, and what the loader returns is taken up. -/
theorem load_of_absent (hsound : c.cache.Sound) (habsent : c.cache.peek? key = none)
    (loader : Loader κ ν ε) :
    c.load key loader = (loader (c.begun key)).2.settle key (loader (c.begun key)).1 := by
  have hmissed : c.get key = (none, (c.get key).2) := by
    have hfound : (c.get key).1 = none := (hsound.get_fst key).trans habsent
    exact Prod.ext hfound rfl
  have hstillAbsent : ((c.get key).2.enter key).cache.peek? key = none := by
    have hcacheEq : ((c.get key).2.enter key).cache = (c.begun key).cache := rfl
    rw [hcacheEq, cache_begun hsound habsent]
    exact habsent
  rw [load, hmissed]
  simp only [lead, hstillAbsent]
  rfl

/-! ## Stores that arise -/

/-- The stores that arise from one that is used one command after the other, also while loaders run. -/
inductive Arises (ε : Type) (start : LoadingCache κ ν) : LoadingCache κ ν → Prop
  /-- Nothing has been done. -/
  | start : Arises ε start start
  /-- A command is run. -/
  | run {c : LoadingCache κ ν} (own : κ → LoadEnd ν ε) (command : LoadingCommand κ ν ε)
      (harises : Arises ε start c) : Arises ε start (command.run own c)
  /-- The loader of a key begins. -/
  | begun {c : LoadingCache κ ν} {key : κ} (habsent : c.cache.peek? key = none)
      (harises : Arises ε start c) : Arises ε start (c.begun key)

/-- A store that arises from a fresh one stands for lists. -/
theorem Arises.sound {place : κ → Nat} {settings : LruSettings} {start : LoadingCache κ ν}
    (hmade : make place settings = .ok start) (harises : Arises ε start c) : c.cache.Sound := by
  induction harises with
  | start =>
    obtain ⟨cache, hstored, rfl⟩ := exists_of_make hmade
    rw [Lru.make] at hstored
    cases hvalid : settings.validate with
    | error fault =>
      rw [hvalid] at hstored
      cases hstored
    | ok _ =>
      rw [hvalid] at hstored
      cases hstored
      exact Lru.Sound.ofSettings place hvalid
  | run own command _ hsound => exact sound_runAll hsound own [command]
  | begun habsent _ hsound => exact sound_begun hsound habsent

/-! ## Loaders that run commands -/

/-- The key is struck from the table of running loads, where all else is as another store has it. -/
def Struck (c left : LoadingCache κ ν) (key : κ) : Prop :=
  key ∉ c.inFlight ∧ ∀ other, other ≠ key → (other ∈ c.inFlight ↔ other ∈ left.inFlight)

/-- A load that ends strikes its key. -/
theorem AlikeBut.struck {left d : LoadingCache κ ν} (halike : AlikeBut key left d) :
    (d.leave key).Struck left key := by
  refine ⟨fun hmember => (mem_inFlight_leave.mp hmember).2 rfl, fun other hne => ?_⟩
  rw [mem_inFlight_leave, and_iff_left hne]
  exact (halike.inFlight other hne).symm

/-- What becomes of a load whose loader runs commands before it returns, against what the commands leave on
their own. If it fails, the load fails and leaves just that. If it returns a value, the load returns what
is held under the key from then on: what the commands have left there, in its place, or else the value, as
the entry used last. A key that is there is not loaded but looked up. -/
theorem load_reentrant {place : κ → Nat} {settings : LruSettings} {start : LoadingCache κ ν}
    (hmade : make place settings = .ok start) (harises : Arises ε start c) (key : κ) :
    (∀ value, c.cache.peek? key = some value → ∀ loader : Loader κ ν ε,
      (c.get key).1 = some value ∧ c.load key loader = (.value value, (c.get key).2)) ∧
    (c.cache.peek? key = none → ∀ (loader : Loader κ ν ε) (own : κ → LoadEnd ν ε)
      (before : List (LoadingCommand κ ν ε)) (ended : LoadEnd ν ε),
      loader (c.begun key) = (ended, LoadingCommand.runAll own before (c.begun key)) →
      let left := LoadingCommand.runAll own before c
      let (answer, after) := c.load key loader
      (∀ e, ended = .failed e →
        answer = .failed e ∧ after.cache.uncounted = left.cache.uncounted ∧ after.Struck left key) ∧
      (∀ value, ended = .value value → ∃ held,
        answer = .value held ∧ after.cache.peek? key = some held ∧ after.Struck left key ∧
          match left.cache.peek? key with
          | some kept => held = kept ∧ after.cache.uncounted = left.cache.uncounted
          | none => held = value ∧ left.cache.PutFirst after.cache key value)) := by
  have hsound := harises.sound hmade
  refine ⟨fun value hpresent loader => load_of_present hsound hpresent loader, ?_⟩
  intro habsent loader own before ended hloads left
  have halike : AlikeBut key left (LoadingCommand.runAll own before (c.begun key)) :=
    (keeps_alikeBut key).runAll own before (alikeBut_begun hsound habsent)
  have hleftSound : left.cache.Sound := sound_runAll hsound own before
  rw [load_of_absent hsound habsent, hloads]
  generalize LoadingCommand.runAll own before (c.begun key) = d at halike ⊢
  refine ⟨?_, ?_⟩
  · rintro e rfl
    exact ⟨rfl, halike.uncounted.symm, halike.struck⟩
  · rintro value rfl
    obtain ⟨held_eq, hputAlike⟩ := Lru.putIfAbsent_congr halike.uncounted.symm key value
    rw [hleftSound.putIfAbsent_fst] at held_eq
    rw [left.cache.putIfAbsent_snd] at hputAlike
    refine ⟨_, rfl, ?_, halike.struck, ?_⟩
    · have held := Lru.peek?_congr hputAlike key
      rw [hleftSound.peek?_inserted_self, ← held_eq] at held
      exact held
    · cases hkeptEq : left.cache.peek? key with
      | some kept =>
        rw [hkeptEq] at held_eq
        rw [Lru.inserted_of_present hkeptEq] at hputAlike
        exact ⟨held_eq, hputAlike⟩
      | none =>
        rw [hkeptEq] at held_eq
        exact ⟨held_eq, (hleftSound.putFirst_inserted hkeptEq value false).congr hputAlike⟩

/-- No key has a value for the store. -/
def unknown : Nat → LoadEnd Nat Unit := fun _ => .failed ()

/-- A fresh store with room for three entries. -/
def fresh : LoadingCache Nat Nat := { cache := Lru.ofSettings id { capacity := 3, concurrency := 1 } }

/-- The store when three entries have been put. -/
def filled : LoadingCache Nat Nat :=
  LoadingCommand.runAll unknown [.put 1 10, .put 2 20, .put 5 50] fresh

/-- What a loader of the key 3 does: it leaves a value under the key itself, uses another entry, and has a
load fail that removes a third one. -/
def leaving : List (LoadingCommand Nat Nat Unit) :=
  [.put 3 31, .get 2, .loadWith 4 [.remove 5] (.failed ())]

/-- What the loader has left under the key is what the load returns, and stays behind the entry that the
loader used last. -/
theorem load_reentrant_of_leaving :
    let loaded := filled.loadWith unknown 3 leaving (.value 30)
    make id { capacity := 3, concurrency := 1 } = .ok fresh ∧ Arises Unit fresh filled ∧
      filled.cache.peek? 3 = none ∧ loaded.1 = .value 31 ∧
      loaded.2.cache.entriesOf 0 = [(2, 20), (3, 31)] ∧ loaded.2.cache.evictions = 1 := by
  have hmade : make id { capacity := 3, concurrency := 1 } = .ok fresh := rfl
  have harises : Arises Unit fresh filled :=
    .run unknown (.put 5 50) (.run unknown (.put 2 20) (.run unknown (.put 1 10) .start))
  have habsent : filled.cache.peek? 3 = none := by decide
  obtain ⟨-, hloads⟩ := load_reentrant hmade harises 3
  obtain ⟨-, hsucceeds⟩ := hloads habsent
    (fun d => (.value 30, LoadingCommand.runAll unknown leaving d)) unknown leaving (.value 30) rfl
  obtain ⟨held, hanswer, -, -, hkept⟩ := hsucceeds 30 rfl
  have hleftThere : (LoadingCommand.runAll unknown leaving filled).cache.peek? 3 = some 31 := by decide
  simp only [hleftThere] at hkept
  obtain ⟨rfl, hsame⟩ := hkept
  have hentriesLeft : (LoadingCommand.runAll unknown leaving filled).cache.entriesOf 0 =
      [(2, 20), (3, 31)] := by decide
  have hevictionsLeft : (LoadingCommand.runAll unknown leaving filled).cache.evictions = 1 := by decide
  exact ⟨hmade, harises, habsent, hanswer, (congrArg (·.entriesOf 0) hsame).trans hentriesLeft,
    (congrArg (·.evictions) hsame).trans hevictionsLeft⟩

end LoadingCache

end EvidenceFlow
