import EvidenceFlow.Tracker
import EvidenceFlow.Proofs.Cache.RecencyHistory
import EvidenceFlow.Proofs.Cache.StoreRuns
import EvidenceFlow.Proofs.Engine.ResultStore

/-!
# When repeats are tracked

A tracker forgets a key once as many other keys have been sighted since as it has room for, and no
sooner: a repeat that it declines counts as a sighting, but leaves what is remembered about the one
tracked last. A tracker by time thus tracks a key again exactly if it has forgotten the key, or if the
interval has passed since the sighting that was tracked last, whichever way the clock has gone between.
-/

namespace EvidenceFlow

/-- A sighting of a key, and what was decided about it. -/
structure Sighting (κ ε : Type) where
  /-- The key. -/
  key : κ
  /-- What was sighted. -/
  event : ε
  /-- Whether it was tracked. -/
  tracked : Bool
deriving DecidableEq, Repr

namespace Sighting

variable {κ ε : Type} [DecidableEq κ]

/-- How many other keys were sighted since a key was; latest sightings come first. -/
def othersSince (past : List (Sighting κ ε)) (key : κ) : Nat :=
  ((past.map (·.key)).takeWhile (· ≠ key)).toFinset.card

/-- The latest sighting of a key that was tracked; latest sightings come first. -/
def lastTracked? (past : List (Sighting κ ε)) (key : κ) : Option (Sighting κ ε) :=
  past.find? fun earlier => earlier.key = key ∧ earlier.tracked

end Sighting

namespace Tracker

variable {κ ε ν : Type} [DecidableEq κ]

/-- Decides about sightings one after the other. -/
def watch (hooks : Hooks ε ν) (seen : Lru κ ν) : List (κ × ε) → List (Sighting κ ε)
  | [] => []
  | (key, event) :: rest =>
    let (tracked, seen) := sight hooks seen key event
    { key, event, tracked } :: watch hooks seen rest

/-- What is decided follows from what the look-up finds. -/
theorem sight_eq (hooks : Hooks ε ν) (seen : Lru κ ν) (key : κ) (event : ε) :
    sight hooks seen key event =
      match (seen.get key).1 with
      | none => (true, (seen.get key).2.put key (hooks.first event))
      | some stored =>
        if hooks.accepts event stored then
          (true, (seen.get key).2.put key (hooks.next event stored))
        else (false, (seen.get key).2) := by
  rw [sight]
  rcases seen.get key with ⟨_ | _, _⟩ <;> rfl

/-- A tracker has a store that replaces values, whatever the settings say. -/
theorem of_make {host : Host} {settings : CacheSettings} {filter : Filter} {t : Tracker ν}
    (hmake : make host settings filter = .ok t) :
    (settings.lru host.processors).validate = .ok () ∧
      t = { filter, seen := Lru.ofSettings host.place
              { settings.lru host.processors with updateExisting := true } } := by
  obtain ⟨⟨⟩, -, hmake⟩ := exists_of_bind_eq_ok hmake
  obtain ⟨seen, hseen, hmake⟩ := exists_of_bind_eq_ok hmake
  obtain ⟨⟨⟩, hvalid, hseen⟩ := exists_of_bind_eq_ok hseen
  cases hseen
  cases hmake
  exact ⟨hvalid, rfl⟩

/-- Whether a sighting of a key is one to track after the sightings of the past, latest first: the key
is new or forgotten, or the event is accepted after the one tracked last. -/
def Due (hooks : Hooks ε ν) (room : Nat) (past : List (Sighting κ ε)) (key : κ) (event : ε) : Prop :=
  (∀ earlier ∈ past, earlier.key ≠ key) ∨ room ≤ Sighting.othersSince past key ∨
    ∃ last, Sighting.lastTracked? past key = some last ∧
      hooks.accepts event (hooks.first last.event) = true

/-- A store with one segment remembers the sightings of the past, latest first, as far as it has room:
under each key that it has not forgotten there is the value of the event tracked last. -/
structure Remembers (hooks : Hooks ε ν) (past : List (Sighting κ ε)) (seen : Lru κ ν)
    (r : Recency κ ν) : Prop where
  /-- The store stands for the list. -/
  alone : seen.Alone true r
  /-- There is room. -/
  room : 0 < r.capacity
  /-- The list holds the keys sighted last. -/
  recalls : r.Recalls (past.map (·.key))
  /-- What is held under a key comes from the event tracked last. -/
  values : ∀ {key value}, r.peek? key = some value →
    ∃ last, Sighting.lastTracked? past key = some last ∧ hooks.first last.event = value

namespace Remembers

variable {hooks : Hooks ε ν} {past : List (Sighting κ ε)} {seen : Lru κ ν} {r : Recency κ ν}

/-- A fresh store with one segment that replaces values remembers that nothing was sighted. -/
theorem ofSettings (hooks : Hooks ε ν) (place : κ → Nat) {settings : LruSettings}
    (hvalid : settings.validate = .ok ()) (hone : settings.segmentCount = 1) :
    Remembers hooks [] (Lru.ofSettings place { settings with updateExisting := true })
      (.empty settings.capacity) where
  alone := Lru.Alone.ofSettings place hvalid hone
  room := (LruSettings.pos_of_validate hvalid).1
  recalls := .empty _
  values hheld := by cases hheld

/-- A key is held if it was sighted, and fewer other keys have been sighted since than there is room
for. -/
theorem isSome_peek?_iff (h : Remembers hooks past seen r) (key : κ) :
    (r.peek? key).isSome ↔ ¬((∀ earlier ∈ past, earlier.key ≠ key) ∨
      r.capacity ≤ Sighting.othersSince past key) := by
  rw [h.recalls.isSome_peek?_iff, not_or, Nat.not_le, Sighting.othersSince]
  simp

/-- A new sighting of another key does not change what was tracked last of a key. -/
theorem lastTracked?_cons_of_ne {key : κ} {s : Sighting κ ε} (h : s.key ≠ key) :
    Sighting.lastTracked? (s :: past) key = Sighting.lastTracked? past key :=
  List.find?_cons_of_neg (by simp [h])

/-- What is put in place of or beside what is held is what was tracked last. -/
theorem values_put (h : Remembers hooks past seen r) (key : κ) (event : ε) {other : κ} {value : ν}
    (hheld : (r.put true key (hooks.first event)).peek? other = some value) :
    ∃ last, Sighting.lastTracked? ({ key, event, tracked := true } :: past) other = some last ∧
      hooks.first last.event = value := by
  by_cases heq : key = other
  · subst heq
    rw [Recency.peek?_put_self] at hheld
    exact ⟨{ key, event, tracked := true }, List.find?_cons_of_pos (by simp), Option.some.inj hheld⟩
  · rw [lastTracked?_cons_of_ne heq]
    rcases r.peek?_put_of_ne true (Ne.symm heq) (hooks.first event) with hsame | ⟨-, -, hnone⟩
    · exact h.values (hsame ▸ hheld)
    · rw [hnone] at hheld
      cases hheld

/-- A sighting that is tracked is remembered. -/
theorem tracked (h : Remembers hooks past seen r) (key : κ) (event : ε) {seen' : Lru κ ν}
    (halone : seen'.Alone true (r.put true key (hooks.first event))) :
    Remembers hooks ({ key, event, tracked := true } :: past) seen'
      (r.put true key (hooks.first event)) where
  alone := halone
  room := by simpa using h.room
  recalls := by
    cases hpeek : r.peek? key with
    | none => exact h.recalls.insert h.room hpeek true _
    | some value => exact h.recalls.replace (hpeek ▸ rfl) _
  values := h.values_put key event

/-- A repeat that is declined counts as a sighting, and changes nothing of what is remembered. -/
theorem declined (h : Remembers hooks past seen r) {key : κ} (hkey : (r.peek? key).isSome)
    (event : ε) :
    Remembers hooks ({ key, event, tracked := false } :: past) (seen.get key).2 (r.get key).2 where
  alone := (h.alone.get key).2
  room := by simpa using h.room
  recalls := h.recalls.get hkey
  values hheld := by
    rw [Recency.peek?_get] at hheld
    obtain ⟨last, hlast, hvalue⟩ := h.values hheld
    exact ⟨last, (List.find?_cons_of_neg (by simp)).trans hlast, hvalue⟩

/-- A sighting is tracked exactly if it is due, and is then one of the past. -/
theorem sight (h : Remembers hooks past seen r)
    (hnext : ∀ event value, hooks.next event value = hooks.first event) (key : κ) (event : ε) :
    ((Tracker.sight hooks seen key event).1 = true ↔ Due hooks r.capacity past key event) ∧
      ∃ r' : Recency κ ν, r'.capacity = r.capacity ∧
        Remembers hooks ({ key, event, tracked := (Tracker.sight hooks seen key event).1 } :: past)
          (Tracker.sight hooks seen key event).2 r' := by
  obtain ⟨hfound, halone⟩ := h.alone.get key
  have hput := halone.put key (hooks.first event)
  rw [Recency.put_get] at hput
  have hgone := h.isSome_peek?_iff key
  rw [sight_eq, hfound]
  cases hpeek : r.peek? key with
  | none =>
    rw [hpeek] at hgone
    have hdue := not_not.mp (mt hgone.mpr (by simp))
    exact ⟨iff_of_true rfl (or_assoc.mp (Or.inl hdue)), _, by simp, h.tracked key event hput⟩
  | some value =>
    rw [hpeek] at hgone
    have hheld := hgone.mp rfl
    obtain ⟨last, hlast, hvalue⟩ := h.values hpeek
    have hdue : Due hooks r.capacity past key event ↔ hooks.accepts event value = true := by
      rw [Due, ← or_assoc, or_iff_right hheld, hlast, ← hvalue]
      simp
    rw [hdue]
    by_cases haccepts : hooks.accepts event value = true
    · simp only [haccepts, if_true, hnext]
      exact ⟨trivial, _, by simp, h.tracked key event hput⟩
    · simp only [haccepts, if_false, Bool.false_eq_true]
      exact ⟨trivial, _, by simp, h.declined (hpeek ▸ rfl) event⟩

/-- Each sighting of a run is tracked exactly if it is due after those before it. -/
theorem watch (hnext : ∀ event value, hooks.next event value = hooks.first event)
    (events : List (κ × ε)) {past : List (Sighting κ ε)} {seen : Lru κ ν} {r : Recency κ ν}
    (h : Remembers hooks past seen r) {before later : List (Sighting κ ε)} {s : Sighting κ ε}
    (hrun : Tracker.watch hooks seen events = before ++ s :: later) :
    s.tracked = true ↔ Due hooks r.capacity (before.reverse ++ past) s.key s.event := by
  induction events generalizing past seen r before with
  | nil => simp [Tracker.watch] at hrun
  | cons first rest ih =>
    obtain ⟨key, event⟩ := first
    obtain ⟨hdue, r', hcapacity, hthen⟩ := h.sight hnext key event
    rw [Tracker.watch] at hrun
    cases before with
    | nil =>
      obtain ⟨rfl, -⟩ := List.cons.inj hrun
      exact hdue
    | cons b before =>
      obtain ⟨rfl, hrest⟩ := List.cons.inj hrun
      rw [← hcapacity, List.reverse_cons, List.append_assoc]
      exact ih hthen hrest

end Remembers

end Tracker

/-! ## Trackers by time -/

namespace IntervalTracker

/-- Decides about sightings of evidence at readings of the clock, one after the other. -/
def watch (t : IntervalTracker) : List (Evidence × Int) → List (Sighting Fingerprint Int)
  | [] => []
  | (evidence, now) :: rest =>
    let (tracked, later) := t.track evidence now
    { key := .ofEvidence t.tracker.filter evidence, event := now, tracked } :: later.watch rest

/-- A run of a tracker is one of its store. -/
theorem watch_eq (t : IntervalTracker) (events : List (Evidence × Int)) :
    t.watch events = Tracker.watch (Tracker.intervalHooks t.interval t.tick) t.tracker.seen
      (events.map fun event => (.ofEvidence t.tracker.filter event.1, event.2)) := by
  induction events generalizing t with
  | nil => rfl
  | cons event rest ih => exact congrArg (List.cons _) (ih (t.track event.1 event.2).2)

/-- The sightings of a run are those of the evidence that it is given. -/
theorem map_watch (t : IntervalTracker) (events : List (Evidence × Int)) :
    (t.watch events).map (fun s => (s.key, s.event)) =
      events.map fun event => (.ofEvidence t.tracker.filter event.1, event.2) := by
  induction events generalizing t with
  | nil => rfl
  | cons event rest ih => exact congrArg (List.cons _) (ih (t.track event.1 event.2).2)

/-- A tracker is made of a store that replaces values, whatever the settings say. -/
theorem of_make {host : Host} {settings : TrackerSettings} {filter : Filter} {tick : Nat}
    {t : IntervalTracker} (hmake : make host settings filter tick = .ok t) :
    (settings.cache.lru host.processors).validate = .ok () ∧
      t = { interval := settings.interval, tick := tick
            tracker :=
              { filter := if settings.perSession then .session filter else filter
                seen := Lru.ofSettings host.place
                  { settings.cache.lru host.processors with updateExisting := true } } } := by
  obtain ⟨⟨⟩, -, hmake⟩ := exists_of_bind_eq_ok hmake
  dsimp only at hmake
  by_cases hlong : longest.nanos < settings.interval.nanos
  · simp only [if_pos hlong] at hmake
    split at hmake <;> cases hmake
  · simp only [if_neg hlong] at hmake
    split at hmake <;>
    · next hsession =>
      obtain ⟨tracker, htracker, hmake⟩ := exists_of_bind_eq_ok hmake
      obtain ⟨hvalid, rfl⟩ := Tracker.of_make htracker
      cases hmake
      refine ⟨hvalid, ?_⟩
      simp only [hsession]
      rfl

/-- A tracker with one segment tracks a sighting exactly if it is the first one of its fingerprint, if
as many other fingerprints have been sighted since the last one as there is room for, or if the clock
has moved by the interval since the last one that was tracked. -/
theorem tracked_iff {host : Host} {settings : TrackerSettings} {filter : Filter} {tick : Nat}
    {t : IntervalTracker} (hmake : make host settings filter tick = .ok t)
    (hone : (settings.cache.lru host.processors).segmentCount = 1)
    (events : List (Evidence × Int)) :
    (t.watch events).map (fun s => (s.key, s.event)) =
        events.map (fun event =>
          (.ofEvidence (if settings.perSession then .session filter else filter) event.1, event.2)) ∧
      ∀ before s later, t.watch events = before ++ s :: later →
        (s.tracked = true ↔
          (∀ earlier ∈ before, earlier.key ≠ s.key) ∨
            settings.cache.size ≤ Sighting.othersSince before.reverse s.key ∨
            ∃ last, Sighting.lastTracked? before.reverse s.key = some last ∧
              (settings.interval.nanos : Int) ≤ (s.event - last.event) * tick) := by
  obtain ⟨hvalid, rfl⟩ := of_make hmake
  refine ⟨map_watch _ events, fun before s later hrun => ?_⟩
  rw [watch_eq] at hrun
  have hremembers := Tracker.Remembers.ofSettings (Tracker.intervalHooks settings.interval tick)
    host.place hvalid hone
  have hdue := hremembers.watch (fun _ _ => rfl) _ hrun
  rw [List.append_nil] at hdue
  simp only [Tracker.Due, Tracker.intervalHooks, decide_eq_true_iff, List.mem_reverse] at hdue
  exact hdue

/-- A first sighting is tracked, and a repeat before the interval has passed is not. -/
theorem tracked_iff_of_repeat :
    ∃ t, make .bySize { cache := { size := 2, concurrency := .exactly 1 }, interval := .ofMillis 1000 } .all =
        .ok t ∧
      (t.watch [(.empty, 0), (.empty, 400)]).map (·.tracked) = [true, false] := by
  obtain ⟨t, hmake⟩ : ∃ t, make .bySize { cache := { size := 2, concurrency := .exactly 1 }
                                          interval := .ofMillis 1000 } .all = .ok t := ⟨_, rfl⟩
  obtain ⟨-, hlaw⟩ := tracked_iff hmake rfl [(.empty, 0), (.empty, 400)]
  refine ⟨t, hmake, ?_⟩
  let sighted (now : Int) (tracked : Bool) : Sighting Fingerprint Int :=
    { key := .ofEvidence t.tracker.filter .empty, event := now, tracked }
  obtain ⟨first, second, hrun⟩ : ∃ first second, t.watch [(.empty, 0), (.empty, 400)] =
      [sighted 0 first] ++ [sighted 400 second] := ⟨_, _, rfl⟩
  obtain rfl : first = true := (hlaw [] _ _ hrun).mpr (Or.inl (by simp))
  have hsecond := hlaw _ _ [] hrun
  have hdeclined : second = false := by
    simpa [sighted, Sighting.othersSince, Sighting.lastTracked?, Duration.ofMillis] using hsecond
  rw [hrun, hdeclined]
  rfl

end IntervalTracker

end EvidenceFlow
