import EvidenceFlow.Proofs.Cache.Reentrance

/-!
# Failed loads among the loads

A store counts a run of a loader when the loader begins, and counts it as failed when the loader fails. To drop
everything sets both counts to zero, also while loaders run. So what is counted is told by when loaders began
and failed: the loads are the runs that began since everything was dropped last, the failures those that failed
since. A run that began before and failed since is one of the failures and none of the loads.
-/

namespace EvidenceFlow

variable {κ ν ε : Type}

/-! ## Runs of loaders -/

/-- A run of a loader. Times are told by how often everything has been dropped. -/
structure LoadRun (κ : Type) where
  /-- The key that is loaded. -/
  key : κ
  /-- When it began. -/
  begun : Nat
  /-- Whether it has not ended. -/
  running : Bool := true
  /-- When it failed, if it did. -/
  failed : Option Nat := none

/-- Whether a load or a loader ends with a fault. -/
def LoadEnd.isFailure : LoadEnd ν ε → Bool
  | .failed _ => true
  | .value _ | .panicked _ => false

/-- The run when its loader has ended so. -/
def LoadRun.conclude (run : LoadRun κ) (now : Nat) : LoadEnd ν ε → LoadRun κ
  | .failed _ => { run with running := false, failed := some now }
  | .value _ | .panicked _ => { run with running := false }

/-- A load that ends began when it began. -/
@[simp] theorem LoadRun.begun_conclude (run : LoadRun κ) (now : Nat) (ended : LoadEnd ν ε) :
    (run.conclude now ended).begun = run.begun := by
  cases ended <;> rfl

/-- A load that has ended does not run. -/
@[simp] theorem LoadRun.running_conclude (run : LoadRun κ) (now : Nat) (ended : LoadEnd ν ε) :
    (run.conclude now ended).running = false := by
  cases ended <;> rfl

/-- A load has failed when it ends by a failure. -/
@[simp] theorem LoadRun.failed_conclude (run : LoadRun κ) (now : Nat) (ended : LoadEnd ν ε) :
    (run.conclude now ended).failed = if ended.isFailure then some now else run.failed := by
  cases ended <;> rfl

/-- The runs of loaders in a store. -/
structure LoadLog (κ : Type) where
  /-- How often everything has been dropped. -/
  now : Nat := 0
  /-- The runs, the one that began last in front. -/
  runs : List (LoadRun κ) := []

namespace LoadLog

/-- How many runs began since everything was dropped last. -/
def begunSince (log : LoadLog κ) : Nat :=
  log.runs.countP fun run => run.begun = log.now

/-- How many runs failed since everything was dropped last. -/
def failedSince (log : LoadLog κ) : Nat :=
  log.runs.countP fun run => run.failed = some log.now

/-- How many runs had begun before everything was dropped last, and failed since. -/
def overtaken (log : LoadLog κ) : Nat :=
  log.runs.countP fun run => run.failed = some log.now ∧ run.begun ≠ log.now

/-- How many runs began since everything was dropped last, and have not failed. -/
def unfailed (log : LoadLog κ) : Nat :=
  log.runs.countP fun run => run.begun = log.now ∧ run.failed ≠ some log.now

/-- What is counted twice does not matter when two counts are compared. -/
theorem countP_le_countP_iff {α : Type} (p q : α → Prop) [DecidablePred p] [DecidablePred q] (xs : List α) :
    xs.countP (fun x => p x) ≤ xs.countP (fun x => q x) ↔
      xs.countP (fun x => p x ∧ ¬q x) ≤ xs.countP fun x => q x ∧ ¬p x := by
  have hsplit (p q : α → Prop) [DecidablePred p] [DecidablePred q] :
      xs.countP (fun x => p x) = xs.countP (fun x => p x ∧ q x) + xs.countP fun x => p x ∧ ¬q x := by
    rw [xs.countP_eq_countP_filter_add (fun x => p x) fun x => q x, List.countP_filter, List.countP_filter]
    simp
  rw [hsplit p q, hsplit q p]
  simp only [and_comm (a := q _)]
  omega

/-- No more runs have failed than begun exactly if those that had begun before are no more than those that
have not failed. -/
theorem failedSince_le_begunSince_iff (log : LoadLog κ) :
    log.failedSince ≤ log.begunSince ↔ log.overtaken ≤ log.unfailed :=
  countP_le_countP_iff _ _ log.runs

/-- Unless everything is dropped during a run that fails, no more runs have failed than begun. -/
theorem overtaken_eq_zero {log : LoadLog κ}
    (h : ∀ run ∈ log.runs, ∀ time, run.failed = some time → run.begun = time) :
    log.overtaken = 0 := by
  rw [overtaken, List.countP_eq_zero]
  intro run hrun
  simp only [decide_eq_true_eq, not_and, not_not]
  exact h run hrun log.now

/-- The log goes on to another one, and the loaders that have begun since have ended. -/
def Ends (log later : LoadLog κ) : Prop :=
  ∃ runs, later.runs = runs ++ log.runs ∧ ∀ run ∈ runs, run.running = false

/-- Nothing needs to end. -/
theorem Ends.refl (log : LoadLog κ) : log.Ends log :=
  ⟨[], rfl, nofun⟩

/-- Loads end one after the other. -/
theorem Ends.trans {log next last : LoadLog κ} (hfirst : log.Ends next) (hsecond : next.Ends last) :
    log.Ends last := by
  obtain ⟨runs, hrunsEq, hended⟩ := hfirst
  obtain ⟨runs', hrunsEq', hended'⟩ := hsecond
  refine ⟨runs' ++ runs, ?_, List.forall_mem_append.mpr ⟨hended', hended⟩⟩
  rw [hrunsEq', hrunsEq, List.append_assoc]

end LoadLog

/-! ## Stores with their logs -/

namespace LoadingCache

variable {start c : LoadingCache κ ν} {log : LoadLog κ}

section Keyed

variable [DecidableEq κ]

/-- The store comes of the one at the start by uses and loads, and these are the runs of loaders. While a loader
runs there may be any uses and loads, and any loader that runs may end next. -/
inductive Logged (ε : Type) (start : LoadingCache κ ν) : LoadingCache κ ν → LoadLog κ → Prop
  /-- Nothing has been done. -/
  | start : Logged ε start start {}
  /-- A key is looked up, which may be a load of a key that is there. -/
  | get {c : LoadingCache κ ν} {log : LoadLog κ} (key : κ) (hlogged : Logged ε start c log) :
      Logged ε start (c.get key).2 log
  /-- A value is put. -/
  | put {c : LoadingCache κ ν} {log : LoadLog κ} (key : κ) (value : ν) (hlogged : Logged ε start c log) :
      Logged ε start (c.put key value) log
  /-- A key is removed. -/
  | remove {c : LoadingCache κ ν} {log : LoadLog κ} (key : κ) (hlogged : Logged ε start c log) :
      Logged ε start (c.remove key).2 log
  /-- Everything is dropped. -/
  | reset {c : LoadingCache κ ν} {log : LoadLog κ} (hlogged : Logged ε start c log) :
      Logged ε start c.reset { log with now := log.now + 1 }
  /-- The loader of a key begins that is not there. -/
  | begun {c : LoadingCache κ ν} {log : LoadLog κ} {key : κ} (habsent : c.cache.peek? key = none)
      (hlogged : Logged ε start c log) :
      Logged ε start (c.begun key) { log with runs := { key := key, begun := log.now } :: log.runs }
  /-- A loader ends that runs. -/
  | settled {c : LoadingCache κ ν} {log : LoadLog κ} {later earlier : List (LoadRun κ)} {run : LoadRun κ}
      (hruns : log.runs = later ++ run :: earlier) (hrunning : run.running = true) (ended : LoadEnd ν ε)
      (hlogged : Logged ε start c log) :
      Logged ε start (c.settle run.key ended).2
        { log with runs := later ++ run.conclude log.now ended :: earlier }

namespace Logged

/-- A store that comes of a fresh one stands for lists. -/
theorem sound {place : κ → Nat} {settings : LruSettings} (hmade : make place settings = .ok start)
    (hlogged : Logged ε start c log) : c.cache.Sound := by
  induction hlogged with
  | start => exact (Arises.start (ε := ε)).sound hmade
  | get key _ hsound => exact hsound.answer (.get key)
  | put key value _ hsound => exact hsound.answer (.put key value)
  | remove key _ hsound => exact hsound.answer (.remove key)
  | reset _ hsound => exact hsound.answer .reset
  | begun habsent _ hsound => exact sound_begun hsound habsent
  | settled _ _ ended _ hsound => exact (keeps_sound.settle _ ended ⟨rfl, hsound⟩).2.2

end Logged

end Keyed

/-- A load that ends is no other load, and is counted once more if its loader failed. -/
theorem loads_settle [DecidableEq κ] (c : LoadingCache κ ν) (key : κ) (ended : LoadEnd ν ε) :
    (c.settle key ended).2.loads = c.loads := by
  cases ended <;> rfl

/-- A failure is counted when the load is settled. -/
theorem loadFailures_settle [DecidableEq κ] (c : LoadingCache κ ν) (key : κ) (ended : LoadEnd ν ε) :
    (c.settle key ended).2.loadFailures = c.loadFailures + if ended.isFailure then 1 else 0 := by
  cases ended <;> rfl

/-- The counts are those of the log, in which nothing lies ahead. -/
structure Tallies (c : LoadingCache κ ν) (log : LoadLog κ) : Prop where
  /-- The loads are the runs that began since everything was dropped last. -/
  loads : c.loads = log.begunSince
  /-- The failures are those since everything was dropped last. -/
  loadFailures : c.loadFailures = log.failedSince
  /-- Every run has begun. -/
  begun : ∀ run ∈ log.runs, run.begun ≤ log.now
  /-- Every run that failed has failed. -/
  failed : ∀ run ∈ log.runs, ∀ time, run.failed = some time → time ≤ log.now
  /-- A run that has not ended has not failed. -/
  running : ∀ run ∈ log.runs, run.running = true → run.failed = none

namespace Tallies

variable {d : LoadingCache κ ν}

/-- Uses that count no load leave the counts. -/
theorem of_counts (h : c.Tallies log) (hloads : d.loads = c.loads)
    (hloadFailures : d.loadFailures = c.loadFailures) :
    d.Tallies log :=
  ⟨hloads.trans h.loads, hloadFailures.trans h.loadFailures, h.begun, h.failed, h.running⟩

variable [DecidableEq κ]

/-- Once everything is dropped, all runs began and failed before. -/
theorem reset (h : c.Tallies log) : c.reset.Tallies { log with now := log.now + 1 } where
  loads := by
    refine (List.countP_eq_zero.mpr fun run hrun => ?_).symm
    have hbegun := h.begun run hrun
    simp only [decide_eq_true_eq]
    omega
  loadFailures := by
    refine (List.countP_eq_zero.mpr fun run hrun => ?_).symm
    have hfailed := h.failed run hrun
    simp only [decide_eq_true_eq]
    intro hnow
    have := hfailed _ hnow
    omega
  begun run hrun := Nat.le_succ_of_le (h.begun run hrun)
  failed run hrun time htime := Nat.le_succ_of_le (h.failed run hrun time htime)
  running := h.running

/-- A run that begins is counted. -/
theorem begin (h : c.Tallies log) (key : κ) :
    (c.begun key).Tallies { log with runs := { key := key, begun := log.now } :: log.runs } where
  loads := by
    rw [loads_begun, h.loads, LoadLog.begunSince, LoadLog.begunSince, List.countP_cons_of_pos (by simp)]
  loadFailures := by
    rw [loadFailures_begun, h.loadFailures, LoadLog.failedSince, LoadLog.failedSince,
      List.countP_cons_of_neg (by simp)]
  begun := List.forall_mem_cons.mpr ⟨Nat.le_refl _, h.begun⟩
  failed := List.forall_mem_cons.mpr ⟨nofun, h.failed⟩
  running := List.forall_mem_cons.mpr ⟨fun _ => rfl, h.running⟩

/-- A run that ends is counted once more if it fails. -/
theorem settle (h : c.Tallies log) {later earlier : List (LoadRun κ)} {run : LoadRun κ}
    (hruns : log.runs = later ++ run :: earlier) (hrunning : run.running = true) (ended : LoadEnd ν ε) :
    (c.settle run.key ended).2.Tallies
      { log with runs := later ++ run.conclude log.now ended :: earlier } := by
  obtain ⟨now, _⟩ := log
  subst hruns
  have hunfailed : run.failed = none := h.running run (by simp) hrunning
  obtain ⟨hloads, hloadFailures, hbegun, hfailed, hstill⟩ := h
  simp only [LoadLog.begunSince, LoadLog.failedSince, List.countP_append, List.countP_cons, hunfailed]
    at hloads hloadFailures
  simp only [List.forall_mem_append, List.forall_mem_cons] at hbegun hfailed hstill
  constructor
  · rw [loads_settle, hloads]
    simp [LoadLog.begunSince, List.countP_append, List.countP_cons]
  · rw [loadFailures_settle, hloadFailures]
    simp only [LoadLog.failedSince, List.countP_append, List.countP_cons, LoadRun.failed_conclude, hunfailed]
    cases ended.isFailure <;> simp [Nat.add_assoc]
  all_goals simp only [List.forall_mem_append, List.forall_mem_cons, LoadRun.begun_conclude,
    LoadRun.running_conclude]
  · exact hbegun
  · refine ⟨hfailed.1, fun time htime => ?_, hfailed.2.2⟩
    rw [LoadRun.failed_conclude] at htime
    split at htime
    · exact (Option.some.inj htime).ge
    · exact hfailed.2.1 time htime
  · exact ⟨hstill.1, fun hended => absurd hended Bool.false_ne_true, hstill.2.2⟩

end Tallies

section Keyed

variable [DecidableEq κ]

/-- The counts are those of the log all the time. -/
theorem Logged.tallies {place : κ → Nat} {settings : LruSettings} (hmade : make place settings = .ok start)
    (hlogged : Logged ε start c log) : c.Tallies log := by
  induction hlogged with
  | start =>
    obtain ⟨cache, -, rfl⟩ := exists_of_make hmade
    exact ⟨rfl, rfl, nofun, nofun, nofun⟩
  | get key _ htallies => exact htallies.of_counts rfl rfl
  | put key value _ htallies => exact htallies.of_counts rfl rfl
  | remove key _ htallies => exact htallies.of_counts rfl rfl
  | reset _ htallies => exact htallies.reset
  | begun _ _ htallies => exact htallies.begin _
  | settled hruns hrunning ended _ htallies => exact htallies.settle hruns hrunning ended

/-! ## Commands -/

/-- What is done to a store with its log leaves one with its log, and all loaders that begin meanwhile end. -/
def Logs (ε : Type) (start : LoadingCache κ ν) (act : LoadingCache κ ν → LoadingCache κ ν) : Prop :=
  ∀ c log, Logged ε start c log → ∃ later, Logged ε start (act c) later ∧ log.Ends later

namespace Logs

/-- Doing nothing keeps the log. -/
theorem unchanged : Logs ε start fun c => c := fun _ log hlogged => ⟨log, hlogged, .refl log⟩

/-- What is done one after the other leaves a log as well. -/
theorem andThen {first second : LoadingCache κ ν → LoadingCache κ ν} (hlogs : Logs ε start first)
    (hlogs' : Logs ε start second) : Logs ε start fun c => second (first c) := by
  intro c log hlogged
  obtain ⟨next, hnextLogged, hends⟩ := hlogs c log hlogged
  obtain ⟨last, hlastLogged, hends'⟩ := hlogs' _ next hnextLogged
  exact ⟨last, hlastLogged, hends.trans hends'⟩

variable {place : κ → Nat} {settings : LruSettings}

/-- A load runs its loader or none, and the loader ends. -/
theorem load (hmade : make place settings = .ok start) (loader : Loader κ ν ε)
    (hloads : Logs ε start fun c => (loader c).2) (key : κ) :
    Logs ε start fun c => (c.load key loader).2 := by
  intro c log hlogged
  have hsound := hlogged.sound hmade
  cases held : c.cache.peek? key with
  | some value =>
    simp only [(load_of_present hsound held loader).2]
    exact ⟨log, hlogged.get key, .refl log⟩
  | none =>
    obtain ⟨left, hleftLogged, runs, hrunsEq, hended⟩ := hloads _ _ (hlogged.begun held)
    simp only [load_of_absent hsound held]
    refine ⟨_, hleftLogged.settled hrunsEq rfl _, ?_⟩
    refine ⟨runs ++ [_], (List.append_assoc _ [_] _).symm, ?_⟩
    exact List.forall_mem_append.mpr ⟨hended, List.forall_mem_singleton.mpr (LoadRun.running_conclude ..)⟩

/-- So do several loads, one after the other. -/
theorem loadRepeatedly (hmade : make place settings = .ok start) (loader : Loader κ ν ε)
    (hloads : Logs ε start fun c => (loader c).2) (key : κ) (times : Nat) :
    Logs ε start fun c => (c.loadRepeatedly key loader times).2 := by
  induction times with
  | zero => exact unchanged
  | succ times ih => exact (load hmade loader hloads key).andThen ih

mutual

/-- So do commands, by the loaders that they bring. -/
theorem run (hmade : make place settings = .ok start) (own : κ → LoadEnd ν ε)
    (command : LoadingCommand κ ν ε) : Logs ε start (command.run own) := by
  cases command with
  | get key => exact fun c log hlogged => ⟨log, hlogged.get key, .refl log⟩
  | put key value => exact fun c log hlogged => ⟨log, hlogged.put key value, .refl log⟩
  | remove key => exact fun c log hlogged => ⟨log, hlogged.remove key, .refl log⟩
  | reset => exact fun c log hlogged => ⟨_, hlogged.reset, .refl log⟩
  | observe => exact unchanged
  | load key => exact load hmade (fun c => (own key, c)) unchanged key
  | loadWith key before ended =>
    exact load hmade (fun c => (ended, LoadingCommand.runAll own before c)) (runAll hmade own before) key
  | loadRepeatedly key times before ended =>
    exact loadRepeatedly hmade (fun c => (ended, LoadingCommand.runAll own before c))
      (runAll hmade own before) key times

/-- Commands keep the log. -/
theorem runAll (hmade : make place settings = .ok start) (own : κ → LoadEnd ν ε)
    (commands : List (LoadingCommand κ ν ε)) : Logs ε start (LoadingCommand.runAll own commands) := by
  cases commands with
  | nil => exact unchanged
  | cons command rest => exact (run hmade own command).andThen (runAll hmade own rest)

end

end Logs

/-- When no more loads have failed than are counted. Commands that run from a fresh store, with loaders that run
commands, make a log in which every run has ended. Whatever has been done to a store and whatever runs in it,
the loads are the runs that began since everything was dropped last, and the failures are those since then. So
there are more failures than loads exactly if the runs that failed since and had begun before are more than the
ones that began since and have not failed. There are not if nothing is dropped during a run that fails. -/
theorem loadFailures_le_loads_iff {place : κ → Nat} {settings : LruSettings}
    (hmade : make place settings = .ok start) :
    (∀ (own : κ → LoadEnd ν ε) (commands : List (LoadingCommand κ ν ε)), ∃ log,
      Logged ε start (LoadingCommand.runAll own commands start) log ∧ ∀ run ∈ log.runs, run.running = false) ∧
    ∀ c log, Logged ε start c log →
      c.stats.loads = log.begunSince ∧ c.stats.loadFailures = log.failedSince ∧
      (c.stats.loadFailures ≤ c.stats.loads ↔ log.overtaken ≤ log.unfailed) ∧
      ((∀ run ∈ log.runs, ∀ time, run.failed = some time → run.begun = time) →
        c.stats.loadFailures ≤ c.stats.loads) := by
  refine ⟨fun own commands => ?_, fun c log hlogged => ?_⟩
  · obtain ⟨log, hlogged, runs, hrunsEq, hended⟩ := Logs.runAll hmade own commands start {} .start
    exact ⟨log, hlogged, by rwa [hrunsEq, List.append_nil]⟩
  · have htallies := hlogged.tallies hmade
    have hleIff : c.stats.loadFailures ≤ c.stats.loads ↔ log.overtaken ≤ log.unfailed := by
      rw [← log.failedSince_le_begunSince_iff, ← htallies.loads, ← htallies.loadFailures]
      rfl
    refine ⟨htallies.loads, htallies.loadFailures, hleIff, fun hwithin => hleIff.mpr ?_⟩
    rw [LoadLog.overtaken_eq_zero hwithin]
    exact Nat.zero_le _

/-- The loader of one key drops everything, lets another load fail, and fails. Its own failure is one of no load
that is counted, the other one is. -/
def dropping : List (LoadingCommand Nat Nat Unit) := [.reset, .loadWith 2 [] (.failed ())]

/-- Of two runs that fail one began before everything was dropped, and none that began since has not failed. -/
theorem loadFailures_le_loads_iff_of_dropping :
    let log : LoadLog Nat := { now := 1, runs := [⟨2, 1, false, some 1⟩, ⟨1, 0, false, some 1⟩] }
    let c := LoadingCommand.runAll unknown [.loadWith 1 dropping (.failed ())] fresh
    make id { capacity := 3, concurrency := 1 } = .ok fresh ∧ Logged Unit fresh c log ∧
      (c.stats.loadFailures ≤ c.stats.loads ↔ log.overtaken ≤ log.unfailed) ∧
      ¬c.stats.loadFailures ≤ c.stats.loads := by
  intro log c
  have hmade : make id { capacity := 3, concurrency := 1 } = .ok fresh := rfl
  have hdropped : Logged Unit fresh (fresh.begun 1).reset { now := 1, runs := [⟨1, 0, true, none⟩] } :=
    .reset (.begun rfl .start)
  have habsent : (fresh.begun 1).reset.cache.peek? 2 = none := by decide +kernel
  have hfailed : Logged Unit fresh ((fresh.begun 1).reset.loadWith unknown 2 [] (.failed ())).2
      { now := 1, runs := [⟨2, 1, false, some 1⟩, ⟨1, 0, true, none⟩] } := by
    rw [loadWith, load_of_absent (hdropped.sound hmade) habsent]
    exact .settled (List.nil_append _).symm rfl (.failed ()) (.begun habsent hdropped)
  have hlogged : Logged Unit fresh c log := by
    have hfreshSound := (Logged.start (ε := Unit)).sound hmade
    have hcEq : c = (fresh.loadWith unknown 1 dropping (.failed ())).2 := rfl
    rw [hcEq, loadWith, load_of_absent hfreshSound rfl]
    exact .settled (List.singleton_append).symm rfl (.failed ()) hfailed
  obtain ⟨-, hcounts⟩ := loadFailures_le_loads_iff hmade
  obtain ⟨hloads, hloadFailures, hleIff, -⟩ := hcounts c log hlogged
  exact ⟨hmade, hlogged, hleIff, fun hle => absurd (hleIff.mp hle) (by decide)⟩

/-- A loader drops everything and fails: a load has failed, and none is counted. -/
theorem not_loadFailures_le_loads_of_reset :
    let loaded := (fresh.loadWith unknown 1 [.reset] (.failed ())).2
    make id { capacity := 3, concurrency := 1 } = .ok fresh ∧
      loaded.stats.loads = 0 ∧ loaded.stats.loadFailures = 1 ∧
      ¬loaded.stats.loadFailures ≤ loaded.stats.loads := by
  exact ⟨rfl, by decide, by decide, by decide⟩

end Keyed

end LoadingCache

end EvidenceFlow
