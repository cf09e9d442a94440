import EvidenceFlow.Proofs.Tracker.KeyCourses

/-!
# Sightings of evidence

A tracker that is given evidence sights its fingerprints. As long as it forgets none of them, each
fingerprint goes through states of its own, which depend on nothing but the events that it is sighted with,
whether or not the settings let values be replaced.
-/

namespace EvidenceFlow.Tracker

variable {ε ν : Type}

/-! ## Runs -/

/-- The events by the fingerprints of the evidence that they come with. -/
def keyed (filter : Filter) (events : List (Evidence × ε)) : List (Fingerprint × ε) :=
  events.map fun event => (.ofEvidence filter event.1, event.2)

/-- The events whose evidence has one of some fingerprints. -/
theorem keyed_filter (filter : Filter) (keep : Fingerprint → Bool) (events : List (Evidence × ε)) :
    keyed filter (events.filter fun event => keep (.ofEvidence filter event.1)) =
      (keyed filter events).filter fun event => keep event.1 := by
  rw [keyed, keyed, List.filter_map]
  rfl

/-- Decides about sightings of evidence one after the other, and says what the tracker is then. -/
def trackAll (t : Tracker ν) (hooks : Hooks ε ν) :
    List (Evidence × ε) → List (Sighting Fingerprint ε) × Tracker ν
  | [] => ([], t)
  | (evidence, event) :: rest =>
    let (tracked, next) := t.track hooks evidence event
    let (later, last) := next.trackAll hooks rest
    ({ key := .ofEvidence t.filter evidence, event, tracked } :: later, last)

/-- A run of a tracker is one of its store. -/
theorem trackAll_eq (t : Tracker ν) (hooks : Hooks ε ν) (events : List (Evidence × ε)) :
    t.trackAll hooks events =
      (watch hooks t.seen (keyed t.filter events),
        { t with seen := after hooks t.seen (keyed t.filter events) }) := by
  induction events generalizing t with
  | nil => rfl
  | cons event rest ih =>
    have hrest := ih (t.track hooks event.1 event.2).2
    simp only [trackAll, hrest]
    rfl

/-! ## New trackers -/

/-- A tracker is made with a new store that replaces values, whatever the settings say. -/
theorem new_of_make {host : Host} {settings : CacheSettings} {filter : Filter} {t : Tracker ν}
    (hmake : make host settings filter = .ok t) :
    t.filter = filter ∧
      New t.seen (settings.lru host.processors).segmentShare
        (fun key => host.place key % (settings.lru host.processors).segmentCount) := by
  obtain ⟨hvalid, rfl⟩ := of_make hmake
  exact ⟨rfl, .ofSettings _ hvalid⟩

/-- As long as a new tracker forgets nothing, a fingerprint is tracked when it is sighted first, and later
when the value that is stored for it accepts the event, which then replaces the value. Other fingerprints
need not be sighted for that, and the settings may let values be replaced or not. -/
theorem course_trackAll {host : Host} {settings : CacheSettings} {filter : Filter} {t : Tracker ν}
    (hmake : make host settings filter = .ok t) (hooks : Hooks ε ν) (events : List (Evidence × ε))
    (hkept : (t.trackAll hooks events).2.stats.evictions = 0) :
    (t.trackAll hooks events).1.map (fun s => (s.key, s.event)) = keyed filter events ∧
      (∀ key,
        (((t.trackAll hooks events).1.filter (·.key = key)).map (·.tracked),
            (t.trackAll hooks events).2.seen.peek? key) =
          hooks.course none (((keyed filter events).filter (·.1 = key)).map (·.2))) ∧
      (∀ key,
        let own := events.filter fun event => Fingerprint.ofEvidence filter event.1 = key
        (t.trackAll hooks own).1 = (t.trackAll hooks events).1.filter (·.key = key) ∧
          (t.trackAll hooks own).2.seen.peek? key = (t.trackAll hooks events).2.seen.peek? key) ∧
      ∀ update, ∃ other, make host { settings with updateExisting := update } filter = .ok other ∧
        other.trackAll hooks events = t.trackAll hooks events := by
  obtain ⟨rfl, hnew⟩ := new_of_make hmake
  simp only [trackAll_eq] at hkept ⊢
  -- whether values are replaced is not asked of the settings, so both make one tracker
  refine ⟨map_watch hooks _ _, hnew.course_eq hooks hkept, fun key => ?_, fun update => ⟨t, hmake, rfl⟩⟩
  rw [keyed_filter t.filter fun other => other = key]
  have hlone := hnew.course_eq hooks (hnew.evictions_after_filter hooks (fun other => other = key) hkept) key
  simp only [List.filter_filter, Bool.and_self, ← hnew.course_eq hooks hkept key, Prod.mk.injEq] at hlone
  exact ⟨hnew.watch_filter hooks (fun other => other = key) hkept, hlone.2⟩

/-- A short run of a new tracker forgets nothing. -/
theorem evictions_trackAll {host : Host} {settings : CacheSettings} {filter : Filter} {t : Tracker ν}
    (hmake : make host settings filter = .ok t) (hooks : Hooks ε ν) {events : List (Evidence × ε)}
    (hroom : ∀ i, events.length ≤ (settings.lru host.processors).segmentShare i) :
    (t.trackAll hooks events).2.stats.evictions = 0 := by
  obtain ⟨rfl, hnew⟩ := new_of_make hmake
  rw [trackAll_eq]
  refine hnew.evictions_after_of_length_le hooks fun i => ?_
  rw [keyed, List.length_map]
  exact hroom i

/-- A fingerprint that may be tracked twice is, with another one sighted in between. -/
theorem course_trackAll_of_limit :
    ∃ t, make .bySize { size := 8, concurrency := .exactly 2, updateExisting := false } .all = .ok t ∧
      let events := [(.empty, ()), (.ofList [("a", .null)], ()), (.empty, ()), (.empty, ())]
      let own := (.ofEvidence .all .empty : Fingerprint)
      (t.trackAll (limitHooks 2) events).2.stats.evictions = 0 ∧
        (((t.trackAll (limitHooks 2) events).1.filter (·.key = own)).map (·.tracked),
          (t.trackAll (limitHooks 2) events).2.seen.peek? own) = ([true, true, false], some 2) := by
  obtain ⟨t, hmake⟩ : ∃ t, make .bySize { size := 8, concurrency := .exactly 2, updateExisting := false } .all =
      .ok t := ⟨_, rfl⟩
  refine ⟨t, hmake, ?_⟩
  intro events own
  have hkept : (t.trackAll (limitHooks 2) events).2.stats.evictions = 0 :=
    evictions_trackAll hmake _ fun i => by
      change 4 ≤ 8 / 2 + _
      omega
  obtain ⟨-, hcourse, -⟩ := course_trackAll hmake (limitHooks 2) events hkept
  refine ⟨hkept, (hcourse own).trans ?_⟩
  have hother : (.ofEvidence .all (.ofList [("a", .null)]) : Fingerprint) ≠ own := by decide +kernel
  have hown : (keyed .all events).filter (·.1 = own) = [(own, ()), (own, ()), (own, ())] := by
    simp [keyed, events, own, hother]
  rw [hown]
  rfl

end EvidenceFlow.Tracker
