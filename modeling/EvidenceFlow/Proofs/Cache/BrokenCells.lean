import EvidenceFlow.Proofs.Cache.BrokenLoads
import EvidenceFlow.Proofs.Cache.LoneCalls

/-!
# Cells that are left behind

Step by step, a loader that is broken off leaves the cell of its key unclaimed in the table of running loads,
and the next call for the key finds this cell. If calls come one after the other, nobody has claimed it
meanwhile: the call claims it, runs its own loader and strikes the cell, as if the cell had just been made. So
the steps of such calls lead to the ends and the entries that a loading store tells without cells, and the cells
that are left behind are those of the keys in its table.
-/

namespace EvidenceFlow

/-- The other keys keep their places. -/
theorem Table.keys_erase {κ α : Type} [DecidableEq κ] (table : Table κ α) (key : κ) :
    (table.erase key).keys = table.keys.filter (· ≠ key) := by
  rw [Table.erase, Table.keys, Table.keys, List.filter_map]
  rfl

variable {κ ν ε : Type} [DecidableEq κ]

/-! ## Stores without calls under way -/

namespace SingleFlight

variable {s : SingleFlight κ ν ε} {c : LoadingCache κ ν} {key : κ} {id : CellId}

/-- No call is under way: the store holds what a loading store holds, and the keys in the table have cells that
nobody has claimed, each its own. -/
structure Rests (s : SingleFlight κ ν ε) (c : LoadingCache κ ν) : Prop where
  /-- The same is held. -/
  cache : s.cache = c.cache
  /-- The same keys are in the table. -/
  keys : s.inFlight.keys = c.inFlight
  /-- Nobody has claimed a cell in the table. -/
  vacant : ∀ {key : κ} {id : CellId}, s.inFlight.lookup key = some id → s.cells[id]? = some .vacant
  /-- No two keys share a cell. -/
  apart : ∀ {key other : κ} {id : CellId}, s.inFlight.lookup key = some id →
    s.inFlight.lookup other = some id → key = other

namespace Rests

/-- Nothing has happened yet. -/
theorem start {place : κ → Nat} {settings : LruSettings} (hmade : LoadingCache.make place settings = .ok c) :
    (SingleFlight.start place settings : SingleFlight κ ν ε).Rests c := by
  rw [LoadingCache.make, Lru.make] at hmade
  cases hvalid : settings.validate with
  | error fault =>
    rw [hvalid] at hmade
    cases hmade
  | ok _ =>
    rw [hvalid] at hmade
    cases hmade
    refine ⟨rfl, rfl, fun hfound => ?_, fun hfound => ?_⟩
    · cases hfound
    · cases hfound

/-- Neither what is held nor the calls that have ended have to do with the table. -/
theorem of_cache {t : SingleFlight κ ν ε} {d : LoadingCache κ ν} (hrests : s.Rests c)
    (hcache : t.cache = d.cache)
    (hcells : t.cells = s.cells) (htable : t.inFlight = s.inFlight) (hkeys : d.inFlight = c.inFlight) :
    t.Rests d where
  cache := hcache
  keys := by rw [htable, hkeys, hrests.keys]
  vacant := by
    rw [htable, hcells]
    exact hrests.vacant
  apart := by
    rw [htable]
    exact hrests.apart

/-- A look at the cache leaves the rest as it is. -/
theorem lookedUp (hrests : s.Rests c) (key : κ) : (s.lookedUp key).Rests (c.get key).2 :=
  hrests.of_cache (congrArg (fun cache : Lru κ ν => (cache.get key).2) hrests.cache) rfl rfl rfl

/-- A key that takes a cell finds it unclaimed, be it new or left behind. -/
theorem takeCell (hrests : s.Rests c) (key : κ) :
    (s.takeCell key).2.Rests (c.enter key) ∧
      (s.takeCell key).2.inFlight.lookup key = some (s.takeCell key).1 := by
  have hthereIff := Table.lookup_isSome_iff s.inFlight key
  rw [hrests.keys] at hthereIff
  rw [SingleFlight.takeCell, LoadingCache.enter]
  cases hentered : s.inFlight.lookup key with
  | some id =>
    rw [hentered] at hthereIff
    rw [if_pos (hthereIff.mp rfl)]
    exact ⟨hrests, hentered⟩
  | none =>
    rw [hentered] at hthereIff
    have habsent : key ∉ c.inFlight := fun hthere => Bool.false_ne_true (hthereIff.mpr hthere)
    have holder {other : κ} {id : CellId} (hfound : s.inFlight.lookup other = some id) : id < s.cells.length :=
      (List.getElem?_eq_some_iff.mp (hrests.vacant hfound)).1
    rw [if_neg habsent]
    refine ⟨⟨hrests.cache, ?_, ?_, ?_⟩, ?_⟩
    · rw [Table.keys_put, hrests.keys, if_neg habsent]
    · intro other id hfound
      rw [Table.lookup_put] at hfound
      split at hfound
      · cases hfound
        exact List.getElem?_concat_length
      · exact (List.getElem?_append_left (holder hfound)).trans (hrests.vacant hfound)
    · intro other third id hfound hfound'
      rw [Table.lookup_put] at hfound hfound'
      split at hfound <;> split at hfound'
      · next hsame hsame' => exact hsame.trans hsame'.symm
      · cases hfound
        exact absurd (holder hfound') (Nat.lt_irrefl _)
      · cases hfound'
        exact absurd (holder hfound) (Nat.lt_irrefl _)
      · exact hrests.apart hfound hfound'
    · rw [Table.lookup_put, if_pos rfl]

/-- A key is struck whose cell has been published. -/
theorem strike (hrests : s.Rests c) (hentered : s.inFlight.lookup key = some id) (cell : Cell ν ε) :
    ((s.setCell id cell).strike key id).Rests (c.leave key) := by
  have hstillEntered : (s.setCell id cell).inFlight.lookup key = some id := hentered
  have hkept {other : κ} {place : CellId} (hfound : (s.inFlight.erase key).lookup other = some place) :
      other ≠ key ∧ s.inFlight.lookup other = some place := by
    rw [Table.lookup_erase] at hfound
    split at hfound
    · cases hfound
    · next hotherKey => exact ⟨hotherKey, hfound⟩
  rw [SingleFlight.strike, if_pos hstillEntered]
  refine ⟨hrests.cache, ?_, ?_, ?_⟩
  · exact (Table.keys_erase s.inFlight key).trans (by rw [hrests.keys, LoadingCache.leave])
  · intro other place hfound
    obtain ⟨hotherKey, hfound⟩ := hkept hfound
    have hotherCell : id ≠ place := fun hsame => hotherKey (hrests.apart hfound (hsame ▸ hentered))
    exact (List.getElem?_set_ne hotherCell).trans (hrests.vacant hfound)
  · intro other third place hfound hfound'
    exact hrests.apart (hkept hfound).2 (hkept hfound').2

/-- To leave a cell vacant that was so before it was claimed changes nothing. -/
theorem vacate (hrests : s.Rests c) (hentered : s.inFlight.lookup key = some id) :
    (s.setCell id .vacant).Rests c := by
  obtain ⟨hmade, hvacant⟩ := List.getElem?_eq_some_iff.mp (hrests.vacant hentered)
  have hsame : s.setCell id .vacant = s := by
    rw [setCell, ← hvacant, List.set_getElem_self]
  exact hsame.symm ▸ hrests

/-- What the loader of the call that has claimed a cell returns is taken up as by the loading store. -/
theorem settle (hrests : s.Rests c) (hentered : s.inFlight.lookup key = some id) (ended : LoadEnd ν ε) :
    ((s.setCell id .claimed).settle key id ended).1 = (c.settle key ended).1 ∧
      ((s.setCell id .claimed).settle key id ended).2.Rests (c.settle key ended).2 := by
  have hsetAgain (s : SingleFlight κ ν ε) (cell : Cell ν ε) :
      (s.setCell id .claimed).setCell id cell = s.setCell id cell := by
    rw [setCell, setCell, setCell, List.set_set]
  cases ended with
  | value v =>
    have hkept : ({ s with cache := (s.cache.putIfAbsent key v).2 } : SingleFlight κ ν ε).Rests
        { c with cache := (c.cache.putIfAbsent key v).2 } :=
      hrests.of_cache (congrArg (fun cache : Lru κ ν => (cache.putIfAbsent key v).2) hrests.cache) rfl rfl rfl
    have hstruck := hkept.strike hentered (.published (.ok (s.cache.putIfAbsent key v).1))
    rw [← hsetAgain] at hstruck
    exact ⟨congrArg (fun cache : Lru κ ν => LoadEnd.value (cache.putIfAbsent key v).1) hrests.cache, hstruck⟩
  | failed e =>
    have hcounted : s.Rests { c with loadFailures := c.loadFailures + 1 } :=
      hrests.of_cache hrests.cache rfl rfl rfl
    have hstruck := hcounted.strike hentered (.published (.error e))
    rw [← hsetAgain] at hstruck
    exact ⟨rfl, hstruck⟩
  | panicked message =>
    have hvacated := hrests.vacate hentered
    rw [← hsetAgain] at hvacated
    exact ⟨rfl, hvacated⟩

end Rests

end SingleFlight

/-! ## Calls one after the other -/

/-- How the load ended that was answered so. -/
def LoadingAnswer.end? : LoadingAnswer ν ε → Option (LoadEnd ν ε)
  | ended how => some how
  | found _ | done => none

/-- What happens in a call that nobody comes between. -/
def LoadingCall.events (s : SingleFlight κ ν ε) : LoadingCall κ ν ε → List (LoadEvent κ ν ε)
  | get key => [.use (.get key)]
  | put key value => [.use (.put key value)]
  | remove key => [.use (.remove key)]
  | reset => [.use .reset]
  | load key ended =>
    let number := s.calls.length
    .begin key ::
      if s.cache.contains key then [.advance number]
      else List.replicate 4 (.advance number) ++
        .loaded number ended :: List.replicate (SingleFlight.turnsLeft ended) (.advance number)

namespace SingleFlight

variable {s : SingleFlight κ ν ε} {c : LoadingCache κ ν} {key : κ}

/-- What a call leads to that nobody comes between, if it comes to its end. -/
def perform? (s : SingleFlight κ ν ε) (call : LoadingCall κ ν ε) : Option (SingleFlight κ ν ε) :=
  s.run? (call.events s)

/-- What calls lead to, one after the other, if each comes to its end. -/
def performAll? (s : SingleFlight κ ν ε) : List (LoadingCall κ ν ε) → Option (SingleFlight κ ν ε)
  | [] => some s
  | call :: rest => (s.perform? call).bind (performAll? · rest)

namespace Rests

/-- The load of a key that is there ends with its value. -/
theorem perform_of_present {value : ν} (hrests : s.Rests c) (hsound : c.cache.Sound)
    (held : c.cache.peek? key = some value) (ended : LoadEnd ν ε) :
    s.perform? (.load key ended) = some ((s.lookedUp key).calling key (.ended (.value value))) := by
  have hthere : s.cache.contains key = true := by
    rw [hrests.cache, hsound.contains_eq, held]
    rfl
  have hfound : (s.cache.get key).1 = some value := by
    rw [hrests.cache, hsound.get_fst, held]
  have hbegun : s.step? (.begin key) = some (s.calling key .lookUp) := rfl
  rw [perform?, LoadingCall.events]
  simp only [hthere, if_true]
  exact (run_cons hbegun _).trans (run_cons (step_lookUp_of_found hfound) _)

/-- The load of a key that is not there claims its cell, be it new or left behind, and runs its loader. -/
theorem perform_of_absent (hrests : s.Rests c) (hsound : c.cache.Sound) (habsent : c.cache.peek? key = none)
    (ended : LoadEnd ν ε) :
    s.perform? (.load key ended) =
      some (((s.led key).2.settle key (s.led key).1 ended).2.calling key
        (.ended ((s.led key).2.settle key (s.led key).1 ended).1)) := by
  have hnotThere : s.cache.contains key = false := by
    rw [hrests.cache, hsound.contains_eq, habsent]
    rfl
  have hmissed : (s.cache.get key).1 = none := by
    rw [hrests.cache, hsound.get_fst, habsent]
  have hstillAbsent : (s.led key).2.cache.peek? key = none := by
    rw [cache_led, hrests.cache, hsound.get_of_absent habsent]
    exact habsent
  obtain ⟨htaken, hentered⟩ := (hrests.lookedUp key).takeCell key
  have hbegun := run_begin hmissed hstillAbsent (htaken.vacant hentered)
  have hloaded := run_loaded (s.led key).2 key (s.led key).1 ended
  rw [calls_led] at hloaded
  rw [perform?, LoadingCall.events]
  simp only [hnotThere, Bool.false_eq_true, if_false]
  rw [← List.cons_append, run_append, hbegun, Option.bind_some, hloaded]

/-- A call comes to its end, and the loading store tells how a load ends. -/
theorem perform (hrests : s.Rests c) (hsound : c.cache.Sound) (call : LoadingCall κ ν ε) :
    ∃ t, s.perform? call = some t ∧ t.Rests (call.answerBy LoadingCache.load c).2 ∧
      t.calls.map (·.stage) = s.calls.map (·.stage) ++
        (call.answerBy LoadingCache.load c).1.end?.toList.map .ended := by
  cases call with
  | get key => exact ⟨_, rfl, hrests.lookedUp key, (List.append_nil _).symm⟩
  | put key value =>
    refine ⟨_, rfl, hrests.of_cache ?_ rfl rfl rfl, (List.append_nil _).symm⟩
    exact congrArg (·.put key value) hrests.cache
  | remove key =>
    refine ⟨_, rfl, hrests.of_cache ?_ rfl rfl rfl, (List.append_nil _).symm⟩
    exact congrArg (fun cache : Lru κ ν => (cache.remove key).2) hrests.cache
  | reset =>
    refine ⟨_, rfl, hrests.of_cache ?_ rfl rfl rfl, (List.append_nil _).symm⟩
    exact congrArg (·.reset) hrests.cache
  | load key ended =>
    have hlookedUp := hrests.lookedUp key
    cases held : c.cache.peek? key with
    | some value =>
      rw [LoadingCall.answerBy, (LoadingCache.load_of_present hsound held _).2]
      refine ⟨_, hrests.perform_of_present hsound held ended, hlookedUp.of_cache hlookedUp.cache rfl rfl rfl, ?_⟩
      exact List.map_append
    | none =>
      obtain ⟨htaken, hentered⟩ := hlookedUp.takeCell key
      have hbegun : ((s.lookedUp key).takeCell key).2.Rests (c.begun key) :=
        htaken.of_cache htaken.cache rfl rfl rfl
      obtain ⟨how, hsettled⟩ := hbegun.settle hentered ended
      rw [LoadingCall.answerBy, LoadingCache.load_of_absent hsound held]
      refine ⟨_, hrests.perform_of_absent hsound held ended, hsettled.of_cache hsettled.cache rfl rfl rfl, ?_⟩
      rw [calling, calls_settle, calls_led, List.map_append]
      exact congrArg (fun how => s.calls.map (·.stage) ++ [.ended how]) how

/-- Calls that come one after the other come to their ends, and the loading store tells how loads end. -/
theorem performAll (hrests : s.Rests c) (hsound : c.cache.Sound) (calls : List (LoadingCall κ ν ε)) :
    ∃ t, s.performAll? calls = some t ∧ t.Rests (LoadingCall.answersBy LoadingCache.load calls c).2 ∧
      t.calls.map (·.stage) = s.calls.map (·.stage) ++
        ((LoadingCall.answersBy LoadingCache.load calls c).1.filterMap (·.end?)).map .ended := by
  induction calls generalizing s c with
  | nil => exact ⟨s, rfl, hrests, (List.append_nil _).symm⟩
  | cons call rest ih =>
    obtain ⟨u, hperformed, hrests, hends⟩ := hrests.perform hsound call
    obtain ⟨t, hlater, hrests, hlaterEnds⟩ := ih hrests (LoadingCall.sound_answerBy hsound call)
    have hendsCons (answer : LoadingAnswer ν ε) (answers : List (LoadingAnswer ν ε)) :
        (answer :: answers).filterMap (·.end?) = answer.end?.toList ++ answers.filterMap (·.end?) := by
      cases answer <;> rfl
    refine ⟨t, ?_, hrests, ?_⟩
    · rw [performAll?, hperformed, Option.bind_some, hlater]
    · rw [hlaterEnds, hends, LoadingCall.answersBy, hendsCons, List.map_append, List.append_assoc]

end Rests

end SingleFlight

namespace LoadingCall

/-- Calls that come one after the other, to a fresh store, are answered as by a store that strikes every key
from its table of running loads, and leave the same entries in the same order and the same counts; only the
table is empty there, while the store's own holds, once each, the keys whose last loader was broken off. A key
that is not there is always loaded: its loader is run and counted, the load ends as it does, and the key is
struck unless it is broken off again. And step by step, all calls come to the ends that are told, whatever cells
were left behind. -/
theorem answersBy_eq_striking {place : κ → Nat} {settings : LruSettings} {start : LoadingCache κ ν}
    (hmade : LoadingCache.make place settings = .ok start) (calls : List (LoadingCall κ ν ε)) :
    let answers := (answersBy LoadingCache.load calls start).1
    let c := (answersBy LoadingCache.load calls start).2
    answersBy LoadingCache.loadStriking calls start = (answers, { c with inFlight := [] }) ∧
    c.inFlight.Nodup ∧ (∀ key, key ∈ c.inFlight ↔ LastBroken (loaderRuns calls start) key) ∧
    (∀ key (ended : LoadEnd ν ε), c.contains key = false →
      let after := c.load key fun c => (ended, c)
      after.1 = ended ∧ after.2.loads = c.loads + 1 ∧
        (key ∈ after.2.inFlight ↔ ∃ message, ended = .panicked message)) ∧
    ∃ s, (SingleFlight.start place settings).performAll? calls = some s ∧ s.Rests c ∧
      s.calls.map (·.stage) = (answers.filterMap (·.end?)).map .ended := by
  intro answers c
  have hsound : start.cache.Sound := (LoadingCache.Arises.start (ε := ε)).sound hmade
  have hidle := LoadingCache.idle_of_make hmade
  have hnoneRunning : start.inFlight = [] := (congrArg (·.inFlight) hidle).symm
  have hstruck := answersBy_loadStriking hsound calls
  rw [hidle] at hstruck
  have hnodup := (answersBy_of_keeps LoadingCache.keeps_nodup calls ⟨rfl, hnoneRunning ▸ List.nodup_nil⟩).2
  refine ⟨hstruck, hnodup, fun key => ?_, fun key ended habsent => ?_,
    (SingleFlight.Rests.start hmade).performAll hsound calls⟩
  · rw [mem_inFlight_answersBy hsound, hnoneRunning, or_iff_left fun hthere => List.not_mem_nil hthere.1]
  · exact LoadingCache.load_of_contains_eq_false (sound_answersBy hsound calls) habsent ended

/-- One key whose loader is broken off is put, found and dropped, and stays in the table; another one is loaded
again. -/
def brokenCalls : List (LoadingCall Nat Nat Unit) :=
  [.load 1 (.panicked "a"), .put 1 10, .load 1 (.value 11), .reset, .load 2 (.panicked "b"), .load 2 (.value 20)]

/-- The first key is left in the table, and nothing else tells that it was. -/
theorem answersBy_eq_striking_of_brokenCalls :
    LoadingCache.make id { capacity := 3, concurrency := 1 } = .ok LoadingCache.fresh ∧
      1 ∈ (answersBy LoadingCache.load brokenCalls LoadingCache.fresh).2.inFlight ∧
      2 ∉ (answersBy LoadingCache.load brokenCalls LoadingCache.fresh).2.inFlight ∧
      (answersBy LoadingCache.loadStriking brokenCalls LoadingCache.fresh).1 =
        [.ended (.panicked "a"), .done, .ended (.value 10), .done, .ended (.panicked "b"), .ended (.value 20)] ∧
      ∃ s, (SingleFlight.start id { capacity := 3, concurrency := 1 }).performAll? brokenCalls = some s ∧
        s.calls.map (·.stage) = [.ended (.panicked "a"), .ended (.value 10), .ended (.panicked "b"),
          .ended (.value 20)] := by
  have hmade : LoadingCache.make id { capacity := 3, concurrency := 1 } = .ok LoadingCache.fresh := rfl
  obtain ⟨hstruck, -, htable, -, s, hperformed, -, hends⟩ := answersBy_eq_striking hmade brokenCalls
  have hruns : loaderRuns brokenCalls LoadingCache.fresh =
      [(1, .panicked "a"), (2, .panicked "b"), (2, .value 20)] := by decide +kernel
  have htold : ((answersBy LoadingCache.load brokenCalls LoadingCache.fresh).1.filterMap (·.end?)) =
      [.panicked "a", .value 10, .panicked "b", .value 20] := by decide +kernel
  refine ⟨hmade, (htable 1).mpr ?_, fun hthere => ?_, ?_, s, hperformed, ?_⟩
  · rw [hruns]
    exact ⟨[], "a", _, rfl, by simp⟩
  · have hlast := (htable 2).mp hthere
    simp [hruns, lastBroken_cons, not_lastBroken_nil] at hlast
  · rw [hstruck]
    decide +kernel
  · rw [hends, htold]
    rfl

end LoadingCall

end EvidenceFlow
