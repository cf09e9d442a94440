import EvidenceFlow.Proofs.Fingerprint.Parts
import EvidenceFlow.Proofs.Tracker.EvidenceRuns

/-!
# Sessions are told apart

A tracker that tells sessions apart makes the session part of every fingerprint, whatever other evidence
its filter lets in and whatever that weighs. So fingerprints of different sessions differ, and as long as
nothing is forgotten a session is dealt with as if there were no other ones. Evidence without a session
counts as a session of its own.
-/

namespace EvidenceFlow

open Text

/-! ## The session of a fingerprint -/

/-- The session for which evidence was given, if it was given for one. -/
def Evidence.session? (e : Evidence) : Option String := e.text? sessionKey

namespace Fingerprint

/-- The session that is part of a fingerprint. -/
def session? (key : Fingerprint) : Option String :=
  (key.parts.find? fun part => part.name = sessionKey).map (·.value)

/-- A filter with the session ahead makes the session of the evidence part of the fingerprint. -/
theorem session?_ofEvidence {e : Evidence} (h : e.Coherent) (inner : Filter) :
    (ofEvidence (.session inner) e).session? = e.session? := by
  have hself : lowercase sessionKey = sessionKey := (isSessionKey_iff _).mp (by decide)
  rw [session?, Evidence.session?]
  cases hfound : (ofEvidence (.session inner) e).parts.find? fun part => part.name = sessionKey with
  | some part =>
    obtain ⟨key, -, -, hname, htext⟩ := (mem_parts h).mp (List.mem_of_find?_eq_some hfound)
    have hsession : part.name = sessionKey := by simpa using List.find?_some hfound
    rw [h.text?_congr (hself.trans (hname.trans hsession).symm), htext]
    rfl
  | none =>
    cases htext : e.text? sessionKey with
    | none => rfl
    | some text =>
      -- the session was given under some spelling of its key, and the filter lets every spelling in
      obtain ⟨key, hkey, hlower⟩ := h.exists_mem_keys htext
      have hname : lowercase key = sessionKey := hlower.trans hself
      have hweight : (Filter.session inner).weight? key = some sessionWeight :=
        if_pos ((isSessionKey_iff key).mpr hname)
      have hpart : (⟨sessionWeight, sessionKey, text⟩ : Part) ∈ (ofEvidence (.session inner) e).parts :=
        (mem_parts h).mpr ⟨key, hkey, hweight, hname, (h.text?_congr hlower).trans htext⟩
      exact absurd (List.find?_eq_none.mp hfound _ hpart) (by simp)

end Fingerprint

/-! ## Runs of one session -/

namespace IntervalTracker

/-- The tracker after sightings of evidence at readings of the clock, one after the other. -/
def after (t : IntervalTracker) (events : List (Evidence × Int)) : IntervalTracker :=
  events.foldl (fun t event => (t.track event.1 event.2).2) t

/-- What a run of a tracker forgets is what its store pushes out. -/
theorem evictions_after (t : IntervalTracker) (events : List (Evidence × Int)) :
    (t.after events).tracker.stats.evictions =
      (Tracker.after (Tracker.intervalHooks t.interval t.tick) t.tracker.seen
        (Tracker.keyed t.tracker.filter events)).evictions := by
  induction events generalizing t with
  | nil => rfl
  | cons event rest ih => exact ih (t.track event.1 event.2).2

/-- Sightings may be chosen by their evidence or by their fingerprints. -/
theorem zip_watch_filter (t : IntervalTracker) (keep : Evidence → Bool) (keepKey : Fingerprint → Bool)
    {events : List (Evidence × Int)}
    (hkeep : ∀ event ∈ events, keepKey (.ofEvidence t.tracker.filter event.1) = keep event.1) :
    ((events.zip (t.watch events)).filter fun sighted => keep sighted.1.1).map (·.2) =
      (t.watch events).filter fun sighting => keepKey sighting.key := by
  induction events generalizing t with
  | nil => rfl
  | cons event rest ih =>
    obtain ⟨hfirst, hrest⟩ := List.forall_mem_cons.mp hkeep
    have hlater := ih (t.track event.1 event.2).2 hrest
    rw [watch, List.zip_cons_cons, List.filter_cons, List.filter_cons]
    dsimp only
    rw [hfirst, ← hlater]
    split <;> rfl

/-- A tracker by time is made with a new store. -/
theorem new_of_make {host : Host} {settings : TrackerSettings} {filter : Filter} {tick : Nat}
    {t : IntervalTracker} (hmake : make host settings filter tick = .ok t) :
    t.tracker.filter = (if settings.perSession then .session filter else filter) ∧
      Tracker.New t.tracker.seen (settings.cache.lru host.processors).segmentShare
        (fun key => host.place key % (settings.cache.lru host.processors).segmentCount) := by
  obtain ⟨hvalid, rfl⟩ := of_make hmake
  exact ⟨rfl, .ofSettings _ hvalid⟩

/-- As long as a tracker that tells sessions apart forgets nothing, it decides about the events of one
session as if they were the only ones, and forgets nothing then either. -/
theorem watch_session {host : Host} {settings : TrackerSettings} {inner : Filter} {tick : Nat}
    {t : IntervalTracker} (hmake : make host settings inner tick = .ok t)
    (hsession : settings.perSession = true)
    (given : List (List (String × Json) × Int)) (session : Option String) :
    let events := given.map fun event => (Evidence.ofList event.1, event.2)
    let own := events.filter fun event => event.1.session? = session
    (t.after events).tracker.stats.evictions = 0 →
      (t.after own).tracker.stats.evictions = 0 ∧
        ((events.zip (t.watch events)).filter fun sighted => sighted.1.1.session? = session).map (·.2) =
          t.watch own := by
  intro events own hkept
  obtain ⟨hfilter, hnew⟩ := new_of_make hmake
  rw [if_pos hsession] at hfilter
  have hkeep (event : Evidence × Int) (hevent : event ∈ events) :
      decide ((Fingerprint.ofEvidence t.tracker.filter event.1).session? = session) =
        decide (event.1.session? = session) := by
    obtain ⟨pairs, -, rfl⟩ := List.mem_map.mp hevent
    rw [hfilter, Fingerprint.session?_ofEvidence (Evidence.coherent_ofList _)]
  have hown : Tracker.keyed t.tracker.filter own =
      (Tracker.keyed t.tracker.filter events).filter fun event => event.1.session? = session := by
    rw [← Tracker.keyed_filter t.tracker.filter fun key => key.session? = session,
      List.filter_congr hkeep]
  rw [evictions_after] at hkept ⊢
  refine ⟨?_, (zip_watch_filter t (fun e => e.session? = session)
    (fun key => key.session? = session) hkeep).trans ?_⟩
  · rw [hown]
    exact hnew.evictions_after_filter _ (fun key => key.session? = session) hkept
  · rw [watch_eq t own, watch_eq t events, ← Tracker.keyed, ← Tracker.keyed, hown]
    exact (hnew.watch_filter _ (fun key => key.session? = session) hkept).symm

/-- One address is sighted in a session, in another one, without a session and in the first one again. -/
theorem watch_session_of_address :
    ∃ t, make .bySize { cache := { size := 16, concurrency := .exactly 4 }, perSession := true }
        (.whitelist (.weighted [("server.client-ip", 2147483647)])) = .ok t ∧
      let address : String × Json := ("server.client-ip", .str "10.0.0.1")
      let given := [([address, ("session.id", .str "a")], 0), ([("Session.ID", .str "b"), address], 1),
        ([address], 2), ([("SESSION.ID", .str "a"), address], 500)]
      let events := given.map fun event => (Evidence.ofList event.1, event.2)
      let own := events.filter fun event => event.1.session? = some "a"
      own.map (·.2) = [0, 500] ∧ (t.after events).tracker.stats.evictions = 0 ∧
        ((events.zip (t.watch events)).filter fun sighted => sighted.1.1.session? = some "a").map (·.2) =
          t.watch own := by
  obtain ⟨t, hmake⟩ : ∃ t,
      make .bySize { cache := { size := 16, concurrency := .exactly 4 }, perSession := true }
      (.whitelist (.weighted [("server.client-ip", 2147483647)])) = .ok t := ⟨_, rfl⟩
  refine ⟨t, hmake, ?_⟩
  intro address given events own
  have hroom : (t.after events).tracker.stats.evictions = 0 := by
    rw [evictions_after]
    refine (new_of_make hmake).2.evictions_after_of_length_le _ fun i => ?_
    change 4 ≤ 16 / 4 + _
    omega
  exact ⟨by decide +kernel, hroom, (watch_session hmake rfl given (some "a") hroom).2⟩

end IntervalTracker

end EvidenceFlow
