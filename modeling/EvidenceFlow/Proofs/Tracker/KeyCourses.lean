import EvidenceFlow.Proofs.Cache.Room
import EvidenceFlow.Proofs.Tracker.IntervalLaw

/-!
# Each key takes its own course

A sighting changes what is stored under its own key and under no other, unless an entry is pushed out for
it. So without evictions each key goes through states of its own: nothing is stored, and then a value that
is replaced when a repeat is tracked. What is decided about some of the keys is decided in the same way if
the other keys are not sighted at all, and then there is room enough as well.
-/

namespace EvidenceFlow.Tracker

variable {κ ε ν : Type}

/-! ## One key -/

namespace Hooks

/-- Decides about the next event of a key by what is stored under it, and says what is stored then. -/
def step (hooks : Hooks ε ν) (stored : Option ν) (event : ε) : Bool × Option ν :=
  match stored with
  | none => (true, some (hooks.first event))
  | some value =>
    if hooks.accepts event value then (true, some (hooks.next event value)) else (false, some value)

/-- Decides about the events of a key one after the other, and says what is stored in the end. -/
def course (hooks : Hooks ε ν) : Option ν → List ε → List Bool × Option ν
  | stored, [] => ([], stored)
  | stored, event :: rest =>
    let (tracked, stored) := hooks.step stored event
    let (later, stored) := hooks.course stored rest
    (tracked :: later, stored)

/-- A course takes its events one after the other. -/
theorem course_cons (hooks : Hooks ε ν) (stored : Option ν) (event : ε) (rest : List ε) :
    hooks.course stored (event :: rest) =
      ((hooks.step stored event).1 :: (hooks.course (hooks.step stored event).2 rest).1,
        (hooks.course (hooks.step stored event).2 rest).2) := rfl

/-- Something is stored after a sighting. -/
theorem isSome_step (hooks : Hooks ε ν) (stored : Option ν) (event : ε) :
    (hooks.step stored event).2.isSome = true := by
  cases stored with
  | none => rfl
  | some value =>
    rw [step]
    split <;> rfl

end Hooks

/-! ## Stores of trackers -/

/-- The store of a tracker: its segments have shares of the room, and values are replaced. -/
structure Works (seen : Lru κ ν) (shares : Nat → Nat) (segment : κ → Nat) : Prop where
  /-- The segments have their shares. -/
  shares : seen.HasShares shares
  /-- Values are replaced. -/
  updates : seen.updateExisting = true
  /-- Where keys go. -/
  segment : ∀ key, segment key = seen.place key % seen.segments.size

/-- Settings may always say that values are replaced. -/
theorem validate_updating {settings : LruSettings} (h : settings.validate = .ok ()) :
    ({ settings with updateExisting := true } : LruSettings).validate = .ok () := h

/-- A fresh store works as its settings say. -/
theorem Works.ofSettings (place : κ → Nat) {settings : LruSettings} (hvalid : settings.validate = .ok ()) :
    Works (Lru.ofSettings place { settings with updateExisting := true } : Lru κ ν)
      settings.segmentShare (fun key => place key % settings.segmentCount) where
  shares := .ofSettings place (validate_updating hvalid)
  updates := rfl
  segment key := by
    have hcount := Lru.segmentCount_ofSettings (ν := ν) place { settings with updateExisting := true }
    exact congrArg (place key % ·) hcount.symm

/-- The first event of a run is filtered by its own key. -/
theorem filter_fst_cons (keep : κ → Bool) (key : κ) (event : ε) (rest : List (κ × ε)) :
    ((key, event) :: rest).filter (fun event => keep event.1) =
      if keep key then (key, event) :: rest.filter (fun event => keep event.1)
      else rest.filter fun event => keep event.1 :=
  List.filter_cons

/-! ## Runs -/

variable [DecidableEq κ]

/-- The store after sightings one after the other. -/
def after (hooks : Hooks ε ν) (seen : Lru κ ν) : List (κ × ε) → Lru κ ν
  | [] => seen
  | (key, event) :: rest => after hooks (sight hooks seen key event).2 rest

/-- A run is watched one sighting after the other. -/
theorem watch_cons (hooks : Hooks ε ν) (seen : Lru κ ν) (key : κ) (event : ε) (rest : List (κ × ε)) :
    watch hooks seen ((key, event) :: rest) =
      { key, event, tracked := (sight hooks seen key event).1 } ::
        watch hooks (sight hooks seen key event).2 rest := rfl

/-- The sightings of a run are those that it is given. -/
theorem map_watch (hooks : Hooks ε ν) (seen : Lru κ ν) (events : List (κ × ε)) :
    (watch hooks seen events).map (fun s => (s.key, s.event)) = events := by
  induction events generalizing seen with
  | nil => rfl
  | cons first rest ih => exact congrArg (List.cons first) (ih _)

/-- After the look-up a sighting puts a value under its key, or leaves the one that was found. -/
theorem sight_snd (hooks : Hooks ε ν) (seen : Lru κ ν) (key : κ) (event : ε) :
    (∃ value, (sight hooks seen key event).2 = (seen.get key).2.put key value) ∨
      (seen.get key).1.isSome = true ∧ (sight hooks seen key event).2 = (seen.get key).2 := by
  rw [sight_eq]
  cases (seen.get key).1 with
  | none => exact .inl ⟨_, rfl⟩
  | some value =>
    dsimp only
    split
    · exact .inl ⟨_, rfl⟩
    · exact .inr ⟨rfl, rfl⟩

/-- A sighting takes back no eviction. -/
theorem evictions_le_sight (hooks : Hooks ε ν) (seen : Lru κ ν) (key : κ) (event : ε) :
    seen.evictions ≤ (sight hooks seen key event).2.evictions := by
  rw [← seen.evictions_get key]
  obtain ⟨value, hput⟩ | ⟨-, hget⟩ := sight_snd hooks seen key event
  · rw [hput, Lru.put_eq_inserted]
    exact Lru.evictions_le_inserted _ _ _ _
  · rw [hget]

/-- Sightings take back no evictions. -/
theorem evictions_le_after (hooks : Hooks ε ν) (seen : Lru κ ν) (events : List (κ × ε)) :
    seen.evictions ≤ (after hooks seen events).evictions := by
  induction events generalizing seen with
  | nil => exact Nat.le_refl _
  | cons first rest ih => exact Nat.le_trans (evictions_le_sight hooks seen first.1 first.2) (ih _)

/-- A run that pushes nothing out does so neither at its first sighting nor later. -/
theorem kept_cons {hooks : Hooks ε ν} {seen : Lru κ ν} {key : κ} {event : ε}
    {rest : List (κ × ε)}
    (hkept : (after hooks seen ((key, event) :: rest)).evictions = seen.evictions) :
    (sight hooks seen key event).2.evictions = seen.evictions ∧
      (after hooks (sight hooks seen key event).2 rest).evictions =
        (sight hooks seen key event).2.evictions := by
  have hfirst := evictions_le_sight hooks seen key event
  have hlater := evictions_le_after hooks (sight hooks seen key event).2 rest
  rw [after] at hkept
  omega

namespace Works

variable {seen : Lru κ ν} {shares : Nat → Nat} {segment : κ → Nat}

/-! ## One sighting -/

/-- A store goes on working after any use. -/
theorem answer (h : Works seen shares segment) (command : StoreCommand κ ν) :
    Works (seen.answer command).2 shares segment := by
  obtain ⟨hsize, hplace, hupdates⟩ := seen.answer_shape command
  refine ⟨h.shares.answer command, hupdates.trans h.updates, fun key => ?_⟩
  rw [hsize, hplace]
  exact h.segment key

/-- A store goes on working after a look-up. -/
theorem get (h : Works seen shares segment) (key : κ) : Works (seen.get key).2 shares segment :=
  h.answer (.get key)

/-- A store goes on working after a value is put. -/
theorem put (h : Works seen shares segment) (key : κ) (value : ν) :
    Works (seen.put key value) shares segment :=
  h.answer (.put key value)

/-- What is put under a key is held under it. -/
theorem peek?_put_self (h : Works seen shares segment) (key : κ) (value : ν) :
    (seen.put key value).peek? key = some value := by
  rw [Lru.put_eq_inserted, h.shares.sound.peek?_inserted_self, h.updates, if_pos rfl]

/-- A sighting is decided by what is held under its key, which changes as if there were no other keys. -/
theorem sight_self (h : Works seen shares segment) (hooks : Hooks ε ν) (key : κ) (event : ε) :
    Works (sight hooks seen key event).2 shares segment ∧
      ((sight hooks seen key event).1, (sight hooks seen key event).2.peek? key) =
        hooks.step (seen.peek? key) event := by
  have hget := h.get key
  rw [sight_eq, h.shares.sound.get_fst]
  cases hstored : seen.peek? key with
  | none =>
    dsimp only [Hooks.step]
    rw [hget.peek?_put_self]
    exact ⟨hget.put key _, rfl⟩
  | some value =>
    dsimp only [Hooks.step]
    by_cases haccepts : hooks.accepts event value = true
    · rw [if_pos haccepts, if_pos haccepts]
      dsimp only
      rw [hget.peek?_put_self]
      exact ⟨hget.put key _, rfl⟩
    · rw [if_neg haccepts, if_neg haccepts]
      dsimp only
      rw [h.shares.sound.peek?_get, hstored]
      exact ⟨hget, rfl⟩

/-- A sighting leaves what is held under other keys, or pushes an entry out. -/
theorem sight_of_ne (h : Works seen shares segment) (hooks : Hooks ε ν) {key other : κ}
    (hne : other ≠ key) (event : ε) :
    (sight hooks seen key event).2.peek? other = seen.peek? other ∨
      seen.evictions < (sight hooks seen key event).2.evictions := by
  rw [← h.shares.sound.peek?_get key other, ← seen.evictions_get key]
  obtain ⟨value, hput⟩ | ⟨-, hget⟩ := sight_snd hooks seen key event
  · rw [hput, Lru.put_eq_inserted]
    exact ((h.get key).shares.sound.peek?_inserted_of_ne hne value _).imp_right And.left
  · rw [hget]
    exact .inl rfl

/-- A sighting pushes an entry out exactly if its key is new, and as many other keys of its segment are
there as the segment has room for. -/
theorem evictions_sight (h : Works seen shares segment) {past : List κ}
    (hheld : ∀ key, (seen.peek? key).isSome = true ↔ key ∈ past) (hooks : Hooks ε ν) (key : κ) (event : ε) :
    (sight hooks seen key event).2.evictions = seen.evictions +
      if key ∉ past ∧ shares (segment key) ≤ Lru.countIn segment (segment key) past then 1 else 0 := by
  rw [← seen.evictions_get key]
  obtain ⟨value, hput⟩ | ⟨hfound, hget⟩ := sight_snd hooks seen key event
  · rw [hput]
    exact (h.get key).shares.evictions_put (h.get key).segment
      (fun other => by rw [h.shares.sound.peek?_get, hheld]) key value
  · rw [h.shares.sound.get_fst, hheld] at hfound
    rw [hget, if_neg (fun hnew => hnew.1 hfound), Nat.add_zero]

/-! ## Courses -/

/-- A sighting that pushes nothing out leaves what is held under other keys. -/
theorem sight_of_ne_of_kept (h : Works seen shares segment) {hooks : Hooks ε ν} {key other : κ} {event : ε}
    (hkept : (sight hooks seen key event).2.evictions = seen.evictions) (hne : other ≠ key) :
    (sight hooks seen key event).2.peek? other = seen.peek? other :=
  (h.sight_of_ne hooks hne event).resolve_right (Nat.not_lt.mpr (Nat.le_of_eq hkept))

/-- In a run that pushes nothing out each key takes its own course. -/
theorem course_eq (h : Works seen shares segment) (hooks : Hooks ε ν) (events : List (κ × ε))
    (hkept : (after hooks seen events).evictions = seen.evictions) (key : κ) :
    (((watch hooks seen events).filter (·.key = key)).map (·.tracked),
        (after hooks seen events).peek? key) =
      hooks.course (seen.peek? key) ((events.filter (·.1 = key)).map (·.2)) := by
  induction events generalizing seen with
  | nil => rfl
  | cons first rest ih =>
    obtain ⟨other, event⟩ := first
    obtain ⟨hnow, hlater⟩ := kept_cons hkept
    obtain ⟨hworks, hself⟩ := h.sight_self hooks other event
    have hrest := ih hworks hlater
    rw [watch_cons, after]
    by_cases hkey : other = key
    · subst hkey
      rw [List.filter_cons_of_pos (by simp), List.filter_cons_of_pos (by simp), List.map_cons, List.map_cons,
        Hooks.course_cons, ← hself, ← hrest]
    · -- no entry is pushed out, so the sighting of another key leaves the state of this one
      rw [List.filter_cons_of_neg (by simpa using hkey), List.filter_cons_of_neg (by simpa using hkey),
        hrest, h.sight_of_ne_of_kept hnow (Ne.symm hkey)]

/-- In runs that push nothing out it does not matter to some keys whether the other ones are sighted. -/
theorem watch_filter {lone : Lru κ ν} (h : Works seen shares segment) (hlone : Works lone shares segment)
    (hooks : Hooks ε ν) (keep : κ → Bool) (events : List (κ × ε))
    (hsame : ∀ key, keep key = true → lone.peek? key = seen.peek? key)
    (hkept : (after hooks seen events).evictions = seen.evictions)
    (hkept' : (after hooks lone (events.filter fun event => keep event.1)).evictions = lone.evictions) :
    watch hooks lone (events.filter fun event => keep event.1) =
      (watch hooks seen events).filter fun sighting => keep sighting.key := by
  -- the stores differ in the other keys, and go on agreeing about the kept ones
  induction events generalizing seen lone with
  | nil => rfl
  | cons first rest ih =>
    obtain ⟨key, event⟩ := first
    obtain ⟨hnow, hlater⟩ := kept_cons hkept
    obtain ⟨hworks, hself⟩ := h.sight_self hooks key event
    rw [watch_cons]
    by_cases hkeep : keep key = true
    · rw [filter_fst_cons, if_pos hkeep] at hkept' ⊢
      rw [List.filter_cons, if_pos hkeep, watch_cons]
      obtain ⟨hnow', hlater'⟩ := kept_cons hkept'
      obtain ⟨hworks', hself'⟩ := hlone.sight_self hooks key event
      rw [hsame key hkeep, ← hself, Prod.mk.injEq] at hself'
      rw [hself'.1]
      refine congrArg _ (ih hworks hworks' (fun other hother => ?_) hlater hlater')
      by_cases hne : other = key
      · rw [hne, hself'.2]
      · rw [hlone.sight_of_ne_of_kept hnow' hne, h.sight_of_ne_of_kept hnow hne, hsame other hother]
    · rw [filter_fst_cons, if_neg hkeep] at hkept' ⊢
      rw [List.filter_cons, if_neg hkeep]
      refine ih hworks hlone (fun other hother => ?_) hlater hkept'
      rw [hsame other hother, h.sight_of_ne_of_kept hnow fun heq => hkeep (heq ▸ hother)]

/-! ## Room for a run -/

/-- A run pushes nothing out exactly if each segment has room for all different keys of its own that have
been sighted. -/
theorem evictions_after_eq_iff (h : Works seen shares segment) {past : List κ}
    (hheld : ∀ key, (seen.peek? key).isSome = true ↔ key ∈ past) (hooks : Hooks ε ν) (events : List (κ × ε)) :
    (after hooks seen events).evictions = seen.evictions ↔
      ∀ i, Lru.countIn segment i (events.map (·.1) ++ past) ≤ shares i := by
  induction events generalizing seen past with
  | nil => exact iff_of_true rfl fun i => h.shares.countIn_le h.segment hheld i
  | cons first rest ih =>
    obtain ⟨key, event⟩ := first
    have hnow := h.evictions_sight hheld hooks key event
    have hlater := evictions_le_after hooks (sight hooks seen key event).2 rest
    obtain ⟨hworks, hself⟩ := h.sight_self hooks key event
    rw [after]
    change _ ↔ ∀ i, Lru.countIn segment i (key :: (rest.map (·.1) ++ past)) ≤ shares i
    by_cases hout : key ∉ past ∧ shares (segment key) ≤ Lru.countIn segment (segment key) past
    · -- the first sighting pushes an entry out, and the segment of its key has no room for all keys
      rw [if_pos hout] at hnow
      refine iff_of_false (by omega) fun hroom => ?_
      have hown := hroom (segment key)
      have hmono := Lru.countIn_mono segment (segment key)
        (List.cons_subset_cons key (List.subset_append_right (rest.map (·.1)) past))
      rw [Lru.countIn_cons_self hout.1] at hmono
      omega
    · rw [if_neg hout, Nat.add_zero] at hnow
      have hheld' (other : κ) :
          ((sight hooks seen key event).2.peek? other).isSome = true ↔ other ∈ key :: past := by
        rw [List.mem_cons]
        by_cases hne : other = key
        · have hstored := hooks.isSome_step (seen.peek? key) event
          rw [← hself] at hstored
          exact iff_of_true (hne ▸ hstored) (.inl hne)
        · rw [h.sight_of_ne_of_kept hnow hne, hheld, or_iff_right hne]
      rw [← hnow, ih hworks hheld']
      refine forall_congr' fun i => ?_
      have hperm : Lru.countIn segment i (rest.map (·.1) ++ key :: past) =
          Lru.countIn segment i (key :: (rest.map (·.1) ++ past)) :=
        Nat.le_antisymm (Lru.countIn_mono segment i List.perm_middle.subset)
          (Lru.countIn_mono segment i List.perm_middle.symm.subset)
      rw [hperm]

end Works

/-- The store of a new tracker. -/
structure New (seen : Lru κ ν) (shares : Nat → Nat) (segment : κ → Nat) : Prop
    extends Works seen shares segment where
  /-- Nothing is held. -/
  empty : ∀ key, seen.peek? key = none
  /-- Nothing has been pushed out. -/
  kept : seen.evictions = 0

namespace New

variable {seen : Lru κ ν} {shares : Nat → Nat} {segment : κ → Nat}

/-- A store is new when it is made, and works as its settings say. -/
theorem ofSettings (place : κ → Nat) {settings : LruSettings} (hvalid : settings.validate = .ok ()) :
    New (Lru.ofSettings place { settings with updateExisting := true } : Lru κ ν)
      settings.segmentShare (fun key => place key % settings.segmentCount) where
  toWorks := .ofSettings place hvalid
  empty := Lru.peek?_ofSettings place (validate_updating hvalid)
  kept := rfl

/-- A run of a new tracker pushes nothing out exactly if each segment has room for all different keys of
its own that are sighted. -/
theorem evictions_after_eq_zero_iff (h : New seen shares segment) (hooks : Hooks ε ν)
    (events : List (κ × ε)) :
    (after hooks seen events).evictions = 0 ↔
      ∀ i, Lru.countIn segment i (events.map (·.1)) ≤ shares i := by
  have hheld (key : κ) : (seen.peek? key).isSome = true ↔ key ∈ [] := by simp [h.empty]
  rw [← h.kept, h.evictions_after_eq_iff hheld, List.append_nil]

/-- A run that is short enough pushes nothing out. -/
theorem evictions_after_of_length_le (h : New seen shares segment) (hooks : Hooks ε ν)
    {events : List (κ × ε)} (hroom : ∀ i, events.length ≤ shares i) :
    (after hooks seen events).evictions = 0 := by
  refine (h.evictions_after_eq_zero_iff hooks events).mpr fun i => ?_
  refine Nat.le_trans (Lru.countIn_le_length segment i _) ?_
  rw [List.length_map]
  exact hroom i

/-- There is room for a run without the sightings of some keys if there is room for the whole run. -/
theorem evictions_after_filter (h : New seen shares segment) (hooks : Hooks ε ν) (keep : κ → Bool)
    {events : List (κ × ε)} (hkept : (after hooks seen events).evictions = 0) :
    (after hooks seen (events.filter fun event => keep event.1)).evictions = 0 := by
  rw [h.evictions_after_eq_zero_iff] at hkept ⊢
  refine fun i => Nat.le_trans (Lru.countIn_mono segment i fun key hkey => ?_) (hkept i)
  obtain ⟨event, hevent, rfl⟩ := List.mem_map.mp hkey
  exact List.mem_map_of_mem (List.mem_of_mem_filter hevent)

/-- In a run that pushes nothing out each key takes its own course, from the state in which nothing is
stored. -/
theorem course_eq (h : New seen shares segment) (hooks : Hooks ε ν) {events : List (κ × ε)}
    (hkept : (after hooks seen events).evictions = 0) (key : κ) :
    (((watch hooks seen events).filter (·.key = key)).map (·.tracked),
        (after hooks seen events).peek? key) =
      hooks.course none ((events.filter (·.1 = key)).map (·.2)) := by
  rw [h.toWorks.course_eq hooks events (hkept.trans h.kept.symm), h.empty]

/-- If a run pushes nothing out, it does not matter to some keys whether the other ones are sighted. -/
theorem watch_filter (h : New seen shares segment) (hooks : Hooks ε ν) (keep : κ → Bool)
    {events : List (κ × ε)} (hkept : (after hooks seen events).evictions = 0) :
    watch hooks seen (events.filter fun event => keep event.1) =
      (watch hooks seen events).filter fun sighting => keep sighting.key :=
  h.toWorks.watch_filter h.toWorks hooks keep events (fun _ _ => rfl) (hkept.trans h.kept.symm)
    ((h.evictions_after_filter hooks keep hkept).trans h.kept.symm)

end New

end EvidenceFlow.Tracker
