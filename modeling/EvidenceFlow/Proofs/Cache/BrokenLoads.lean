import EvidenceFlow.Proofs.Cache.Reentrance

/-!
# Loads that are broken off

A loader that is broken off leaves its key in the table of running loads, since the load does not come to
strike it. Nothing goes by the table when loads come one after the other: the next load of the key runs its
own loader and strikes the key, whatever has been looked up, put or dropped in between. So a store answers and
counts as one that strikes every key, and its table holds the keys whose last loader was broken off.
-/

namespace EvidenceFlow

/-- A call of a loading store that ends before the next one begins. -/
inductive LoadingCall (κ ν ε : Type) where
  /-- Looks a key up. -/
  | get (key : κ)
  /-- Puts a value under a key. -/
  | put (key : κ) (value : ν)
  /-- Removes a key. -/
  | remove (key : κ)
  /-- Drops everything. -/
  | reset
  /-- Loads a key; its loader, that of the store or one of its own, ends so if it is run. -/
  | load (key : κ) (ended : LoadEnd ν ε)

/-- What a loading store answers. -/
inductive LoadingAnswer (ν ε : Type) where
  /-- What was found or removed. -/
  | found (value : Option ν)
  /-- How a load ended. -/
  | ended (ended : LoadEnd ν ε)
  /-- Nothing but that it is done. -/
  | done
deriving DecidableEq

namespace LoadingCache

variable {κ ν ε : Type} {c : LoadingCache κ ν} {key : κ}

/-! ## Stores that strike keys -/

/-- The store as if no load were running. -/
def idle (c : LoadingCache κ ν) : LoadingCache κ ν := { c with inFlight := [] }

/-- Nothing is running in a fresh store. -/
theorem idle_of_make {place : κ → Nat} {settings : LruSettings} (hmade : make place settings = .ok c) :
    c.idle = c := by
  obtain ⟨cache, -, rfl⟩ := exists_of_make hmade
  rfl

variable [DecidableEq κ]

/-- Strikes a key if its load was broken off. -/
def strike (key : κ) : LoadEnd ν ε × LoadingCache κ ν → LoadEnd ν ε × LoadingCache κ ν
  | (.panicked message, c) => (.panicked message, c.leave key)
  | answered => answered

/-- Loads a key and strikes it from the table of running loads, however its loader ends. -/
def loadStriking (c : LoadingCache κ ν) (key : κ) (loader : Loader κ ν ε) :
    LoadEnd ν ε × LoadingCache κ ν :=
  strike key (c.load key loader)

/-- In an idle store the load of a key is the only one that is running. -/
theorem enter_idle (c : LoadingCache κ ν) (key : κ) :
    c.idle.enter key = { c.enter key with inFlight := [key] } := by
  have hnoneRunning : key ∉ c.idle.inFlight := List.not_mem_nil
  rw [enter, enter, if_neg hnoneRunning]
  split <;> rfl

/-- A load that begins on an idle cache is the only one that runs. -/
theorem begun_idle (c : LoadingCache κ ν) (key : κ) :
    c.idle.begun key = { c.begun key with inFlight := [key] } := by
  have hgetIdle : (c.idle.get key).2 = (c.get key).2.idle := rfl
  rw [begun, hgetIdle, enter_idle]
  rfl

/-- Whatever a loader returns is taken up alike, and nothing is running then. -/
theorem strike_settle (c : LoadingCache κ ν) (key : κ) (ended : LoadEnd ν ε) :
    strike key ({ c with inFlight := [key] }.settle key ended) =
      ((c.settle key ended).1, (c.settle key ended).2.idle) := by
  cases ended <;> simp [settle, strike, leave, idle]

/-- A load that strikes its key ends as any other, and nothing is running then. -/
theorem loadStriking_idle (hsound : c.cache.Sound) (key : κ) (ended : LoadEnd ν ε) :
    c.idle.loadStriking key (fun c => (ended, c)) =
      ((c.load key fun c => (ended, c)).1, (c.load key fun c => (ended, c)).2.idle) := by
  have hidleSound : c.idle.cache.Sound := hsound
  cases held : c.cache.peek? key with
  | some value =>
    have hidleHeld : c.idle.cache.peek? key = some value := held
    rw [loadStriking, (load_of_present hidleSound hidleHeld _).2, (load_of_present hsound held _).2]
    rfl
  | none =>
    have hidleAbsent : c.idle.cache.peek? key = none := held
    rw [loadStriking, load_of_absent hidleSound hidleAbsent, load_of_absent hsound held, begun_idle]
    exact strike_settle (c.begun key) key ended

/-! ## The table of running loads -/

/-- Only a load that is broken off leaves its key in the table. -/
theorem mem_inFlight_settle {other : κ} {ended : LoadEnd ν ε} :
    other ∈ (c.settle key ended).2.inFlight ↔
      other ∈ c.inFlight ∧ (other = key → ∃ message, ended = .panicked message) := by
  cases ended with
  | value v => simp [settle, mem_inFlight_leave]
  | failed e => simp [settle, mem_inFlight_leave]
  | panicked message => simp [settle]

/-- What is loaded after a load has begun was loaded before or is its key. -/
theorem mem_inFlight_begun {other : κ} : other ∈ (c.begun key).inFlight ↔ other ∈ c.inFlight ∨ other = key :=
  mem_inFlight_enter

/-- No key comes to stand in the table twice. -/
theorem keeps_nodup : Keeps (fun c d : LoadingCache κ ν => c = d ∧ c.inFlight.Nodup) ε where
  get key := fun ⟨hsame, hnodup⟩ => hsame ▸ ⟨rfl, rfl, hnodup⟩
  put key value := fun ⟨hsame, hnodup⟩ => hsame ▸ ⟨rfl, hnodup⟩
  remove key := fun ⟨hsame, hnodup⟩ => hsame ▸ ⟨rfl, hnodup⟩
  reset := fun ⟨hsame, hnodup⟩ => hsame ▸ ⟨rfl, hnodup⟩
  enter key := by
    rintro ⟨rfl, hnodup⟩
    refine ⟨rfl, ?_⟩
    rw [enter]
    split
    · exact hnodup
    · next habsent =>
      refine List.nodup_append.mpr ⟨hnodup, List.nodup_singleton key, ?_⟩
      rintro other hthere last hnew rfl
      exact habsent (List.mem_singleton.mp hnew ▸ hthere)
  leave key := fun ⟨hsame, hnodup⟩ => hsame ▸ ⟨rfl, hnodup.filter _⟩
  peek? key := fun ⟨hsame, _⟩ => hsame ▸ rfl
  counted := fun ⟨hsame, hnodup⟩ => hsame ▸ ⟨rfl, hnodup⟩
  settle key ended := by
    rintro ⟨rfl, hnodup⟩
    refine ⟨rfl, rfl, ?_⟩
    cases ended with
    | value v => exact hnodup.filter _
    | failed e => exact hnodup.filter _
    | panicked message => exact hnodup

/-- The load of a key that is not there runs its loader, counts it, ends as it does, and strikes the key unless
it is broken off, whether or not one was broken off before. -/
theorem load_of_contains_eq_false (hsound : c.cache.Sound) (habsent : c.contains key = false)
    (ended : LoadEnd ν ε) :
    (c.load key fun c => (ended, c)).1 = ended ∧ (c.load key fun c => (ended, c)).2.loads = c.loads + 1 ∧
      (key ∈ (c.load key fun c => (ended, c)).2.inFlight ↔ ∃ message, ended = .panicked message) := by
  have hmissing : c.cache.peek? key = none := (hsound.contains_eq_false_iff key).mp habsent
  have hbegunMissing : (c.begun key).cache.peek? key = none := by
    rw [cache_begun hsound hmissing]
    exact hmissing
  have hbegunSound := sound_begun hsound hmissing
  rw [load_of_absent hsound hmissing, mem_inFlight_settle, mem_inFlight_begun]
  refine ⟨?_, ?_, by simp⟩
  · cases ended with
    | value v =>
      have held : ((c.begun key).cache.putIfAbsent key v).1 = v := by
        rw [hbegunSound.putIfAbsent_fst, hbegunMissing, Option.getD_none]
      exact congrArg LoadEnd.value held
    | failed e => rfl
    | panicked message => rfl
  · rw [← loads_begun]
    cases ended <;> rfl

end LoadingCache

namespace LoadingCall

variable {κ ν ε : Type}

/-! ## Last runs -/

/-- The last run of the key's loader was broken off. -/
def LastBroken (runs : List (κ × LoadEnd ν ε)) (key : κ) : Prop :=
  ∃ before message after, runs = before ++ (key, .panicked message) :: after ∧ ∀ run ∈ after, run.1 ≠ key

/-- Without loads none was the last to break. -/
theorem not_lastBroken_nil (key : κ) : ¬LastBroken ([] : List (κ × LoadEnd ν ε)) key := by
  rintro ⟨before, message, after, hrunsEq, -⟩
  exact absurd hrunsEq.symm (List.append_ne_nil_of_right_ne_nil _ (List.cons_ne_nil _ _))

/-- A run is the last one of its key if no later run is. -/
theorem lastBroken_cons {run : κ × LoadEnd ν ε} {rest : List (κ × LoadEnd ν ε)} {key : κ} :
    LastBroken (run :: rest) key ↔
      LastBroken rest key ∨ (∃ message, run = (key, .panicked message)) ∧ ∀ later ∈ rest, later.1 ≠ key := by
  constructor
  · rintro ⟨before, message, after, hrunsEq, hlast⟩
    cases before with
    | nil =>
      obtain ⟨rfl, rfl⟩ := List.cons_eq_cons.mp hrunsEq
      exact .inr ⟨⟨message, rfl⟩, hlast⟩
    | cons first before =>
      obtain ⟨-, hrestEq⟩ := List.cons_eq_cons.mp hrunsEq
      exact .inl ⟨before, message, after, hrestEq, hlast⟩
  · rintro (⟨before, message, after, rfl, hlast⟩ | ⟨⟨message, rfl⟩, hlast⟩)
    · exact ⟨run :: before, message, after, rfl, hlast⟩
    · exact ⟨[], message, rest, rfl, hlast⟩

variable [DecidableEq κ] {c d : LoadingCache κ ν}

/-! ## Calls -/

/-- What a store answers to a call, if it loads so, and the store then. -/
def answerBy (load : LoadingCache κ ν → κ → Loader κ ν ε → LoadEnd ν ε × LoadingCache κ ν) :
    LoadingCall κ ν ε → LoadingCache κ ν → LoadingAnswer ν ε × LoadingCache κ ν
  | get key, c => let (found, c) := c.get key; (.found found, c)
  | put key value, c => (.done, c.put key value)
  | remove key, c => let (found, c) := c.remove key; (.found found, c)
  | reset, c => (.done, c.reset)
  | .load key ended, c => let (ended, c) := load c key fun c => (ended, c); (.ended ended, c)

/-- What a store answers to calls one after the other, and the store then. -/
def answersBy (load : LoadingCache κ ν → κ → Loader κ ν ε → LoadEnd ν ε × LoadingCache κ ν) :
    List (LoadingCall κ ν ε) → LoadingCache κ ν → List (LoadingAnswer ν ε) × LoadingCache κ ν
  | [], c => ([], c)
  | call :: rest, c =>
    let (answer, c) := call.answerBy load c
    let (answers, c) := answersBy load rest c
    (answer :: answers, c)

/-- What the uses of a store keep, calls keep. -/
theorem answerBy_of_keeps {R : LoadingCache κ ν → LoadingCache κ ν → Prop} (hkeeps : LoadingCache.Keeps R ε)
    (call : LoadingCall κ ν ε) (hrelated : R c d) :
    R (call.answerBy LoadingCache.load c).2 (call.answerBy LoadingCache.load d).2 := by
  cases call with
  | get key => exact (hkeeps.get key hrelated).2
  | put key value => exact hkeeps.put key value hrelated
  | remove key => exact hkeeps.remove key hrelated
  | reset => exact hkeeps.reset hrelated
  | load key ended =>
    have hloads : LoadingCache.Corresponds R (fun c => (ended, c)) (fun d => (ended, d)) :=
      fun hrelated => ⟨rfl, hrelated⟩
    exact (hkeeps.load hloads key hrelated).2

/-- What one call keeps is kept by all of them. -/
theorem answersBy_of_keeps {R : LoadingCache κ ν → LoadingCache κ ν → Prop} (hkeeps : LoadingCache.Keeps R ε)
    (calls : List (LoadingCall κ ν ε)) (hrelated : R c d) :
    R (answersBy LoadingCache.load calls c).2 (answersBy LoadingCache.load calls d).2 := by
  induction calls generalizing c d with
  | nil => exact hrelated
  | cons call rest ih => exact ih (answerBy_of_keeps hkeeps call hrelated)

/-- A call leaves the cache sound. -/
theorem sound_answerBy (hsound : c.cache.Sound) (call : LoadingCall κ ν ε) :
    (call.answerBy LoadingCache.load c).2.cache.Sound :=
  (answerBy_of_keeps LoadingCache.keeps_sound call ⟨rfl, hsound⟩).2

/-- Calls leave the cache sound. -/
theorem sound_answersBy (hsound : c.cache.Sound) (calls : List (LoadingCall κ ν ε)) :
    (answersBy LoadingCache.load calls c).2.cache.Sound :=
  (answersBy_of_keeps LoadingCache.keeps_sound calls ⟨rfl, hsound⟩).2

/-- A store that strikes every key answers and counts as one that leaves the broken ones in its table. -/
theorem answerBy_loadStriking (hsound : c.cache.Sound) (call : LoadingCall κ ν ε) :
    call.answerBy LoadingCache.loadStriking c.idle =
      ((call.answerBy LoadingCache.load c).1, (call.answerBy LoadingCache.load c).2.idle) := by
  cases call with
  | load key ended =>
    rw [answerBy, LoadingCache.loadStriking_idle hsound]
    rfl
  | get key => rfl
  | put key value => rfl
  | remove key => rfl
  | reset => rfl

/-- Calls that strike stale cells answer as those that leave them, and end with none left. -/
theorem answersBy_loadStriking (hsound : c.cache.Sound) (calls : List (LoadingCall κ ν ε)) :
    answersBy LoadingCache.loadStriking calls c.idle =
      ((answersBy LoadingCache.load calls c).1, (answersBy LoadingCache.load calls c).2.idle) := by
  induction calls generalizing c with
  | nil => rfl
  | cons call rest ih =>
    rw [answersBy, answerBy_loadStriking hsound]
    simp only [ih (sound_answerBy hsound call)]
    rfl

/-! ## Runs of loaders -/

/-- The loader that a call runs, by its key, and how it ends: that of a load whose key is not there. -/
def loaderRun? : LoadingCall κ ν ε → LoadingCache κ ν → Option (κ × LoadEnd ν ε)
  | .load key ended, c => if c.contains key then none else some (key, ended)
  | _, _ => none

/-- The loaders that calls run one after the other. -/
def loaderRuns : List (LoadingCall κ ν ε) → LoadingCache κ ν → List (κ × LoadEnd ν ε)
  | [], _ => []
  | call :: rest, c => (call.loaderRun? c).toList ++ loaderRuns rest (call.answerBy LoadingCache.load c).2

/-- The table after a call: the loader of the key was broken off, or the key was there before and its loader
was not run. -/
theorem mem_inFlight_answerBy (hsound : c.cache.Sound) (call : LoadingCall κ ν ε) (key : κ) :
    key ∈ (call.answerBy LoadingCache.load c).2.inFlight ↔
      (∃ message, call.loaderRun? c = some (key, .panicked message)) ∨
        key ∈ c.inFlight ∧ ∀ run ∈ call.loaderRun? c, run.1 ≠ key := by
  cases call with
  | load loaded ended =>
    cases held : c.cache.peek? loaded with
    | some value =>
      have hnotRun : (load loaded ended).loaderRun? c = none := by
        rw [loaderRun?, LoadingCache.contains, hsound.contains_eq, held]
        rfl
      have hlookedUp : ((load loaded ended).answerBy LoadingCache.load c).2.inFlight = c.inFlight := by
        rw [answerBy, (LoadingCache.load_of_present hsound held _).2]
        rfl
      simp [hnotRun, hlookedUp]
    | none =>
      have hrun : (load loaded ended).loaderRun? c = some (loaded, ended) := by
        rw [loaderRun?, LoadingCache.contains, hsound.contains_eq, held]
        rfl
      have hsettled : ((load loaded ended).answerBy LoadingCache.load c).2 =
          ((c.begun loaded).settle loaded ended).2 := by
        rw [answerBy, LoadingCache.load_of_absent hsound held]
      rw [hsettled, hrun, LoadingCache.mem_inFlight_settle, LoadingCache.mem_inFlight_begun]
      by_cases hsame : key = loaded
      · simp [hsame]
      · simp [hsame, Ne.symm hsame]
  | get loaded => simp [loaderRun?, answerBy, LoadingCache.get]
  | put loaded value => simp [loaderRun?, answerBy, LoadingCache.put]
  | remove loaded => simp [loaderRun?, answerBy, LoadingCache.remove]
  | reset => simp [loaderRun?, answerBy, LoadingCache.reset]

/-- The table after calls: the key's last loader was broken off, or the key was there before and its loader was
never run. -/
theorem mem_inFlight_answersBy (hsound : c.cache.Sound) (calls : List (LoadingCall κ ν ε)) (key : κ) :
    key ∈ (answersBy LoadingCache.load calls c).2.inFlight ↔
      LastBroken (loaderRuns calls c) key ∨
        key ∈ c.inFlight ∧ ∀ run ∈ loaderRuns calls c, run.1 ≠ key := by
  induction calls generalizing c with
  | nil => simp [answersBy, loaderRuns, not_lastBroken_nil]
  | cons call rest ih =>
    have hlater := ih (sound_answerBy hsound call)
    rw [mem_inFlight_answerBy hsound] at hlater
    rw [answersBy, loaderRuns]
    refine hlater.trans ?_
    cases call.loaderRun? c with
    | none => simp
    | some run =>
      simp only [Option.toList_some, List.singleton_append, lastBroken_cons, List.forall_mem_cons,
        Option.some_inj, Option.mem_some, forall_eq']
      tauto

end LoadingCall

end EvidenceFlow
