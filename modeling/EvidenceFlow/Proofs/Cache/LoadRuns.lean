import EvidenceFlow.Cache.Loading
import EvidenceFlow.Proofs.Cache.LruValues

/-!
# Runs of loading stores

A command that uses a loading store may bring a loader that runs commands itself, and so on. What the
single uses keep between two stores, runs of commands keep as well, however deep their loaders go. One case
is what a single store keeps: it stands for lists all the time. Another is that two stores differ in the
counts of their look-ups only, which no use of a store goes by.
-/

namespace EvidenceFlow

/-! ## Counts of look-ups -/

namespace Lru

variable {κ ν : Type} [DecidableEq κ]

/-- The store as if nothing had been looked up in it. -/
def uncounted (c : Lru κ ν) : Lru κ ν := { c with hits := 0, misses := 0 }

variable {c d : Lru κ ν}

/-- A look-up finds the same whatever has been counted. -/
theorem get_congr (halike : c.uncounted = d.uncounted) (key : κ) :
    (c.get key).1 = (d.get key).1 ∧ (c.get key).2.uncounted = (d.get key).2.uncounted := by
  have huncountedGet (c : Lru κ ν) : (c.get key).1 = (c.uncounted.get key).1 ∧
      (c.get key).2.uncounted = (c.uncounted.get key).2.uncounted := by
    have hsegmentEq : c.uncounted.segment key = c.segment key := rfl
    rw [get, get, hsegmentEq]
    rcases (c.segment key).get key with ⟨_ | value, segment⟩ <;> exact ⟨rfl, rfl⟩
  rw [(huncountedGet c).1, (huncountedGet c).2, (huncountedGet d).1, (huncountedGet d).2, halike]
  exact ⟨rfl, rfl⟩

/-- To put a value does the same whatever has been counted. -/
theorem inserted_congr (halike : c.uncounted = d.uncounted) (key : κ) (value : ν) (update : Bool) :
    (c.inserted key value update).uncounted = (d.inserted key value update).uncounted := by
  have huncountedInserted (c : Lru κ ν) : (c.inserted key value update).uncounted =
      (c.uncounted.inserted key value update).uncounted := by
    have hsegmentEq : c.uncounted.segment key = c.segment key := rfl
    rw [inserted, inserted, hsegmentEq]
    rcases ((c.segment key).insert key value update).1 with (_ | _) | _ | _ <;> rfl
  rw [huncountedInserted, huncountedInserted d, halike]

/-- Entering a value does not look at the counters. -/
theorem put_congr (halike : c.uncounted = d.uncounted) (key : κ) (value : ν) :
    (c.put key value).uncounted = (d.put key value).uncounted := by
  have hupdateEq : c.updateExisting = d.updateExisting := congrArg (·.updateExisting) halike
  rw [put_eq_inserted, put_eq_inserted, hupdateEq]
  exact inserted_congr halike key value _

/-- To put a value under a new key does and answers the same whatever has been counted. -/
theorem putIfAbsent_congr (halike : c.uncounted = d.uncounted) (key : κ) (value : ν) :
    (c.putIfAbsent key value).1 = (d.putIfAbsent key value).1 ∧
      (c.putIfAbsent key value).2.uncounted = (d.putIfAbsent key value).2.uncounted := by
  constructor
  · have hsegmentEq : c.segment key = d.segment key := congrArg (·.segment key) halike
    rw [putIfAbsent, putIfAbsent, hsegmentEq]
    rcases (d.segment key).insert key value false with ⟨_ | _ | _, segment⟩ <;> rfl
  · rw [putIfAbsent_snd, putIfAbsent_snd]
    exact inserted_congr halike key value false

/-- Removing a value does not look at the counters. -/
theorem remove_congr (halike : c.uncounted = d.uncounted) (key : κ) :
    (c.remove key).2.uncounted = (d.remove key).2.uncounted :=
  congrArg (fun c => (c.remove key).2.uncounted) halike

/-- Emptying the cache does not look at the counters. -/
theorem reset_congr (halike : c.uncounted = d.uncounted) : c.reset.uncounted = d.reset.uncounted :=
  congrArg (fun c => c.reset.uncounted) halike

/-- A look without a trace does not look at the counters. -/
theorem peek?_congr (halike : c.uncounted = d.uncounted) (key : κ) : c.peek? key = d.peek? key :=
  congrArg (·.peek? key) halike

end Lru

namespace LoadingCache

variable {κ ν ε : Type} [DecidableEq κ] {R : LoadingCache κ ν → LoadingCache κ ν → Prop}
  {c d : LoadingCache κ ν}

omit [DecidableEq κ] in
/-- In a fresh store nothing has been loaded, and nothing is running. -/
theorem exists_of_make {place : κ → Nat} {settings : LruSettings} (hmade : make place settings = .ok c) :
    ∃ cache, Lru.make place settings = .ok cache ∧ c = { cache } := by
  rw [make] at hmade
  cases hstored : (Lru.make place settings : Except Fault (Lru κ ν)) with
  | error fault =>
    rw [hstored] at hmade
    cases hmade
  | ok cache =>
    rw [hstored] at hmade
    cases hmade
    exact ⟨cache, rfl, rfl⟩

/-- Entering the table of loads leaves the values alone. -/
@[simp] theorem cache_enter (c : LoadingCache κ ν) (key : κ) : (c.enter key).cache = c.cache := by
  rw [enter]
  split <;> rfl

/-- Entering the table of loads counts no load. -/
@[simp] theorem loads_enter (c : LoadingCache κ ν) (key : κ) : (c.enter key).loads = c.loads := by
  rw [enter]
  split <;> rfl

/-- Entering the table of loads counts no failure. -/
@[simp] theorem loadFailures_enter (c : LoadingCache κ ν) (key : κ) :
    (c.enter key).loadFailures = c.loadFailures := by
  rw [enter]
  split <;> rfl

/-- In the table afterwards are the keys from before and the one that entered. -/
theorem mem_inFlight_enter {key other : κ} :
    other ∈ (c.enter key).inFlight ↔ other ∈ c.inFlight ∨ other = key := by
  rw [enter]
  split
  · next hthere =>
    constructor
    · exact .inl
    · rintro (hmember | rfl)
      · exact hmember
      · exact hthere
  · exact List.mem_append.trans (or_congr_right List.mem_singleton)

/-- In the table afterwards are the keys from before but the one that left. -/
theorem mem_inFlight_leave {key other : κ} :
    other ∈ (c.leave key).inFlight ↔ other ∈ c.inFlight ∧ other ≠ key := by
  simp [leave]

/-! ## What runs keep -/

/-- The single uses of a loading store, and the steps that a load is made of, answer alike on related
stores and leave related ones. -/
structure Keeps (R : LoadingCache κ ν → LoadingCache κ ν → Prop) (ε : Type) : Prop where
  get : ∀ {c d} key, R c d → (c.get key).1 = (d.get key).1 ∧ R (c.get key).2 (d.get key).2
  put : ∀ {c d} key value, R c d → R (c.put key value) (d.put key value)
  remove : ∀ {c d} key, R c d → R (c.remove key).2 (d.remove key).2
  reset : ∀ {c d}, R c d → R c.reset d.reset
  enter : ∀ {c d} key, R c d → R (c.enter key) (d.enter key)
  leave : ∀ {c d} key, R c d → R (c.leave key) (d.leave key)
  peek? : ∀ {c d} key, R c d → c.cache.peek? key = d.cache.peek? key
  counted : ∀ {c d}, R c d → R { c with loads := c.loads + 1 } { d with loads := d.loads + 1 }
  settle : ∀ {c d} key (ended : LoadEnd ν ε), R c d →
    (c.settle key ended).1 = (d.settle key ended).1 ∧ R (c.settle key ended).2 (d.settle key ended).2

/-- Two loaders end alike on related stores and leave related ones. -/
def Corresponds (R : LoadingCache κ ν → LoadingCache κ ν → Prop) (loader loader' : Loader κ ν ε) : Prop :=
  ∀ {c d}, R c d → (loader c).1 = (loader' d).1 ∧ R (loader c).2 (loader' d).2

namespace Keeps

/-- Loads with such loaders end alike on related stores and leave related ones. -/
theorem load (hkeeps : Keeps R ε) {loader loader' : Loader κ ν ε} (hloads : Corresponds R loader loader')
    (key : κ) (hrelated : R c d) :
    (c.load key loader).1 = (d.load key loader').1 ∧ R (c.load key loader).2 (d.load key loader').2 := by
  obtain ⟨hfound, hlooked⟩ := hkeeps.get key hrelated
  rw [LoadingCache.load, LoadingCache.load]
  rcases hc : c.get key with ⟨foundc, c'⟩
  rcases hd : d.get key with ⟨foundd, d'⟩
  rw [hc, hd] at hfound hlooked
  obtain rfl : foundc = foundd := hfound
  cases foundc with
  | some value => exact ⟨rfl, hlooked⟩
  | none =>
    have hentered := hkeeps.enter key hlooked
    have held := hkeeps.peek? key hentered
    simp only [lead, held]
    cases (d'.enter key).cache.peek? key with
    | some value => exact ⟨rfl, hkeeps.leave key hentered⟩
    | none =>
      obtain ⟨hended, hleft⟩ := hloads (hkeeps.counted hentered)
      simp only [hended]
      exact hkeeps.settle key _ hleft

/-- So do several loads, one after the other. -/
theorem loadRepeatedly (hkeeps : Keeps R ε) {loader loader' : Loader κ ν ε}
    (hloads : Corresponds R loader loader') (key : κ) (times : Nat) (hrelated : R c d) :
    R (c.loadRepeatedly key loader times).2 (d.loadRepeatedly key loader' times).2 := by
  induction times generalizing c d with
  | zero => exact hrelated
  | succ times ih => exact ih (hkeeps.load hloads key hrelated).2

mutual

/-- A command leaves related stores, by the loader that it brings. -/
theorem run (hkeeps : Keeps R ε) (own : κ → LoadEnd ν ε) (command : LoadingCommand κ ν ε)
    {c d : LoadingCache κ ν} (hrelated : R c d) : R (command.run own c) (command.run own d) := by
  cases command with
  | get key => exact (hkeeps.get key hrelated).2
  | put key value => exact hkeeps.put key value hrelated
  | remove key => exact hkeeps.remove key hrelated
  | reset => exact hkeeps.reset hrelated
  | observe => exact hrelated
  | load key =>
    have hloads : Corresponds R (fun c => (own key, c)) (fun d => (own key, d)) :=
      fun hrelated => ⟨rfl, hrelated⟩
    exact (hkeeps.load hloads key hrelated).2
  | loadWith key before ended =>
    have hloads : Corresponds R (fun c => (ended, LoadingCommand.runAll own before c))
        (fun d => (ended, LoadingCommand.runAll own before d)) :=
      fun hrelated => ⟨rfl, runAll hkeeps own before hrelated⟩
    exact (hkeeps.load hloads key hrelated).2
  | loadRepeatedly key times before ended =>
    have hloads : Corresponds R (fun c => (ended, LoadingCommand.runAll own before c))
        (fun d => (ended, LoadingCommand.runAll own before d)) :=
      fun hrelated => ⟨rfl, runAll hkeeps own before hrelated⟩
    exact hkeeps.loadRepeatedly hloads key times hrelated

/-- Commands leave related stores, one after the other. -/
theorem runAll (hkeeps : Keeps R ε) (own : κ → LoadEnd ν ε) (commands : List (LoadingCommand κ ν ε))
    {c d : LoadingCache κ ν} (hrelated : R c d) :
    R (LoadingCommand.runAll own commands c) (LoadingCommand.runAll own commands d) := by
  cases commands with
  | nil => exact hrelated
  | cons command rest => exact runAll hkeeps own rest (run hkeeps own command hrelated)

end

end Keeps

/-! ## Sound stores -/

/-- The uses of a loading store keep that it stands for lists, as those of a store do. -/
theorem keeps_sound : Keeps (fun c d : LoadingCache κ ν => c = d ∧ c.cache.Sound) ε where
  get key := fun ⟨hsame, hsound⟩ => hsame ▸ ⟨rfl, rfl, hsound.answer (.get key)⟩
  put key value := fun ⟨hsame, hsound⟩ => hsame ▸ ⟨rfl, hsound.answer (.put key value)⟩
  remove key := fun ⟨hsame, hsound⟩ => hsame ▸ ⟨rfl, hsound.answer (.remove key)⟩
  reset := fun ⟨hsame, hsound⟩ => hsame ▸ ⟨rfl, hsound.answer .reset⟩
  enter key := by
    rintro ⟨rfl, hsound⟩
    refine ⟨rfl, ?_⟩
    rwa [cache_enter]
  leave key := fun ⟨hsame, hsound⟩ => hsame ▸ ⟨rfl, hsound⟩
  peek? key := fun ⟨hsame, _⟩ => hsame ▸ rfl
  counted := fun ⟨hsame, hsound⟩ => hsame ▸ ⟨rfl, hsound⟩
  settle key ended := by
    rintro ⟨rfl, hsound⟩
    refine ⟨rfl, rfl, ?_⟩
    cases ended with
    | value v => exact hsound.answer (.putIfAbsent key v)
    | failed e => exact hsound
    | panicked message => exact hsound

/-- A store stands for lists after every run if it does before. -/
theorem sound_runAll (hsound : c.cache.Sound) (own : κ → LoadEnd ν ε)
    (commands : List (LoadingCommand κ ν ε)) : (LoadingCommand.runAll own commands c).cache.Sound :=
  (keeps_sound.runAll own commands ⟨rfl, hsound⟩).2

/-! ## Stores while a key is loaded -/

/-- The stores hold the same in the same order, and the same loads are running, that of the key aside. -/
structure AlikeBut (key : κ) (c d : LoadingCache κ ν) : Prop where
  /-- They differ in counts of look-ups. -/
  uncounted : c.cache.uncounted = d.cache.uncounted
  /-- Other keys are in both tables or in neither. -/
  inFlight : ∀ other, other ≠ key → (other ∈ c.inFlight ↔ other ∈ d.inFlight)

/-- To strike a key leaves stores alike. -/
theorem AlikeBut.leave {key : κ} (halike : AlikeBut key c d) (loaded : κ) :
    AlikeBut key (c.leave loaded) (d.leave loaded) where
  uncounted := halike.uncounted
  inFlight other hne := by
    rw [mem_inFlight_leave, mem_inFlight_leave]
    exact and_congr_left fun _ => halike.inFlight other hne

/-- No use tells whether a key is being loaded, be it a load of the same key. -/
theorem keeps_alikeBut (key : κ) : Keeps (@AlikeBut κ ν key) ε where
  get used halike := by
    obtain ⟨hfound, huncounted⟩ := Lru.get_congr halike.uncounted used
    exact ⟨hfound, huncounted, halike.inFlight⟩
  put used value halike := ⟨Lru.put_congr halike.uncounted used value, halike.inFlight⟩
  remove used halike := ⟨Lru.remove_congr halike.uncounted used, halike.inFlight⟩
  reset halike := ⟨Lru.reset_congr halike.uncounted, halike.inFlight⟩
  enter used halike := by
    refine ⟨?_, fun other hne => ?_⟩
    · rw [cache_enter, cache_enter]
      exact halike.uncounted
    · rw [mem_inFlight_enter, mem_inFlight_enter]
      exact or_congr_left (halike.inFlight other hne)
  leave used halike := halike.leave used
  peek? used halike := Lru.peek?_congr halike.uncounted used
  counted halike := ⟨halike.uncounted, halike.inFlight⟩
  settle {c d} used ended halike := by
    cases ended with
    | value v =>
      obtain ⟨held, huncounted⟩ := Lru.putIfAbsent_congr halike.uncounted used v
      have hput : AlikeBut key { c with cache := (c.cache.putIfAbsent used v).2 }
          { d with cache := (d.cache.putIfAbsent used v).2 } := ⟨huncounted, halike.inFlight⟩
      exact ⟨congrArg LoadEnd.value held, hput.leave used⟩
    | failed e =>
      have hcounted : AlikeBut key { c with loadFailures := c.loadFailures + 1 }
          { d with loadFailures := d.loadFailures + 1 } := ⟨halike.uncounted, halike.inFlight⟩
      exact ⟨rfl, hcounted.leave used⟩
    | panicked message => exact ⟨rfl, halike⟩

end LoadingCache

end EvidenceFlow
