import EvidenceFlow.Element.Tracking
import EvidenceFlow.Proofs.Pipeline.Supplied
import EvidenceFlow.Proofs.Tracker.SessionRuns

/-!
# What trackers declare and what they go by

An element with a tracker declares the evidence of the filter that it is given. If it tells sessions apart,
its tracker goes by the session as well, which is declared only if the filter has it. Who leaves out what no
element of a pipeline declares then gets other decisions, unless another element asks for the session.
-/

namespace EvidenceFlow

open Text

/-! ## What trackers go by -/

/-- The session is the one given last, in any spelling of its name. -/
theorem Evidence.session?_concat (pairs : List (String × Json)) {key : String} (hkey : isSessionKey key = true)
    (text : String) : (ofList (pairs ++ [(key, .str text)])).session? = some text := by
  have hself : lowercase key = lowercase sessionKey :=
    ((isSessionKey_iff key).mp hkey).trans ((isSessionKey_iff sessionKey).mp (by decide)).symm
  rw [session?, text?_ofList, given_concat, if_pos hself, List.getLast?_concat]
  rfl

/-- Evidence of the session, if there is any, is admitted. -/
def Evidence.SessionAdmitted (admitted : Filter) (e : Evidence) : Prop :=
  ∀ key ∈ e.keys, isSessionKey key = true → admitted.includes key = true

namespace TrackingElement

variable {host : Host} {number : Nat} {key : String} {filter admitted : Filter} {settings : TrackerSettings}
  {clockMoves : Bool} {element : TrackingElement} {tracker : IntervalTracker}

/-- An element comes with the tracker of its filter. -/
theorem of_build (hbuild : build host number key filter settings clockMoves = .ok (element, tracker)) :
    element.filter = filter ∧ IntervalTracker.make host settings filter = .ok tracker := by
  obtain ⟨made, hmake, hbuild⟩ := exists_of_bind_eq_ok hbuild
  cases hbuild
  exact ⟨rfl, hmake⟩

/-- Where the filter that a tracker is given is admitted, fingerprints stay as they are exactly if the session
is admitted as well or is not told apart. -/
theorem ofEvidence_only_iff (hmake : IntervalTracker.make host settings filter = .ok tracker)
    (hadmitted : ∀ key, filter.includes key = true → admitted.includes key = true) {e : Evidence}
    (he : e.Coherent) :
    Fingerprint.ofEvidence tracker.tracker.filter (e.only admitted) =
        Fingerprint.ofEvidence tracker.tracker.filter e ↔
      (settings.perSession = true → e.SessionAdmitted admitted) := by
  rw [Fingerprint.ofEvidence_only_iff he, (IntervalTracker.new_of_make hmake).1]
  cases settings.perSession with
  | false => exact iff_of_true (fun key _ => hadmitted key) nofun
  | true =>
    rw [if_pos rfl]
    refine ⟨fun h _ key hkey hsession => h key hkey ?_, fun h key hkey hincluded => ?_⟩
    · rw [Filter.includes, hsession, Bool.true_or]
    · rcases Bool.or_eq_true_iff.mp hincluded with hsession | hinner
      · exact h rfl key hkey hsession
      · exact hadmitted key hinner

end TrackingElement

/-! ## Two sightings -/

/-- Of two sightings with a new store, the first is tracked, and the other one too unless it is a repeat that is
declined. -/
theorem Tracker.New.watch_pair {κ ε ν : Type} [DecidableEq κ] {seen : Lru κ ν} {shares : Nat → Nat}
    {segment : κ → Nat} (h : Tracker.New seen shares segment) (hroom : ∀ i, 0 < shares i) (hooks : Hooks ε ν)
    (key other : κ) (event later : ε) :
    (watch hooks seen [(key, event), (other, later)]).map (·.tracked) =
      [true, if other = key then hooks.accepts later (hooks.first event) else true] := by
  obtain ⟨hworks, hfirst⟩ := h.sight_self hooks key event
  rw [h.empty, Hooks.step, Prod.mk.injEq] at hfirst
  have hsecond := congrArg Prod.fst (hworks.sight_self hooks other later).2
  dsimp only at hsecond
  rw [watch_cons, watch_cons, watch, List.map_cons, List.map_cons, List.map_nil, hfirst.1, hsecond]
  by_cases hsame : other = key
  · rw [if_pos hsame, hsame, hfirst.2, Hooks.step]
    cases hooks.accepts later (hooks.first event) <;> rfl
  · -- there is room for the first key, so nothing is pushed out and the other one is still new
    have hkept : (after hooks seen [(key, event)]).evictions = 0 := h.evictions_after_of_length_le hooks hroom
    have hheld := h.toWorks.sight_of_ne_of_kept (hkept.trans h.kept.symm) hsame
    rw [if_neg hsame, hheld, h.empty]
    rfl

namespace IntervalTracker

variable {host : Host} {settings : TrackerSettings} {filter : Filter} {tick : Nat} {t : IntervalTracker}

/-- The interval of a tracker has a length. -/
theorem pos_of_make (hmake : make host settings filter tick = .ok t) : 0 < settings.interval.nanos := by
  obtain ⟨⟨⟩, hvalid, -⟩ := exists_of_bind_eq_ok hmake
  rw [TrackerSettings.validate] at hvalid
  split at hvalid
  · cases hvalid
  · next hlong => simpa [Duration.isZero, Nat.pos_iff_ne_zero] using hlong

/-- Sightings of evidence of which only what a filter admits is supplied. -/
def supplied (admitted : Filter) (events : List (Evidence × Int)) : List (Evidence × Int) :=
  events.map fun event => (event.1.only admitted, event.2)

/-- A tracker sights the same fingerprints and decides the same about them if none of them misses anything. -/
theorem watch_supplied_iff (t : IntervalTracker) (admitted : Filter) (events : List (Evidence × Int)) :
    t.watch (supplied admitted events) = t.watch events ↔
      ∀ event ∈ events, Fingerprint.ofEvidence t.tracker.filter (event.1.only admitted) =
        Fingerprint.ofEvidence t.tracker.filter event.1 := by
  constructor
  · intro heq event hevent
    have hkeys := congrArg (List.map fun s => (s.key, s.event)) heq
    rw [map_watch, map_watch, supplied, List.map_map, List.map_inj_left] at hkeys
    exact (Prod.mk.inj (hkeys event hevent)).1
  · intro heq
    rw [watch_eq, watch_eq, supplied, List.map_map]
    congr 1
    exact List.map_congr_left fun event hevent => congrArg (·, event.2) (heq event hevent)

/-- Of two events at one reading of the clock the second one is tracked exactly if its fingerprint is another
one. -/
theorem watch_pair (hmake : make host settings filter tick = .ok t) (first second : Evidence) (now : Int) :
    (t.watch [(first, now), (second, now)]).map (·.tracked) =
      [true, decide (Fingerprint.ofEvidence t.tracker.filter second ≠
        Fingerprint.ofEvidence t.tracker.filter first)] := by
  obtain ⟨hvalid, hmade⟩ := of_make hmake
  have hinterval : 0 < t.interval.nanos := by
    rw [hmade]
    exact pos_of_make hmake
  have hrepeat : decide ((t.interval.nanos : Int) ≤ (now - now) * t.tick) = false := by
    rw [decide_eq_false_iff_not, Int.sub_self, Int.zero_mul]
    omega
  have hpair := (new_of_make hmake).2.watch_pair (Lru.segmentShare_pos hvalid)
    (Tracker.intervalHooks t.interval t.tick) (.ofEvidence t.tracker.filter first)
    (.ofEvidence t.tracker.filter second) now now
  rw [watch_eq]
  refine hpair.trans ?_
  split
  · next hsame =>
    rw [hsame, decide_eq_false (not_not_intro rfl)]
    exact congrArg (fun tracked => [true, tracked]) hrepeat
  · next hother => rw [decide_eq_true hother]

/-- A repeat at the same reading of the clock is declined. -/
theorem tracked_of_repeat (hmake : make host settings filter tick = .ok t) (e : Evidence) (now : Int) :
    (t.watch [(e, now), (e, now)]).map (·.tracked) = [true, false] := by
  rw [watch_pair hmake, decide_eq_false (not_not_intro rfl)]

/-- Events of different sessions are both tracked, if sessions are told apart. -/
theorem tracked_of_sessions (hmake : make host settings filter tick = .ok t)
    (hsession : settings.perSession = true)
    {first second : Evidence} (hfirst : first.Coherent) (hsecond : second.Coherent)
    (hother : second.session? ≠ first.session?) (now : Int) :
    (t.watch [(first, now), (second, now)]).map (·.tracked) = [true, true] := by
  have hkeys : Fingerprint.ofEvidence t.tracker.filter second ≠
      Fingerprint.ofEvidence t.tracker.filter first := by
    rw [(new_of_make hmake).1, if_pos hsession]
    intro heq
    have hsessions := congrArg Fingerprint.session? heq
    rw [Fingerprint.session?_ofEvidence hsecond, Fingerprint.session?_ofEvidence hfirst] at hsessions
    exact hother hsessions
  rw [watch_pair hmake, decide_eq_true hkeys]

/-- Where a name of the session is left out, some sessions cannot be told apart. -/
theorem exists_tracked_ne (hmake : make host settings filter tick = .ok t)
    (hsession : settings.perSession = true)
    {admitted : Filter} {key : String} (hkey : isSessionKey key = true)
    (hleft : ¬admitted.includes key = true) :
    ∃ given : List (List (String × Json) × Int),
      let events := given.map fun event => (Evidence.ofList event.1, event.2)
      (t.watch (supplied admitted events)).map (·.tracked) ≠ (t.watch events).map (·.tracked) := by
  have hname (text : String) : (Evidence.ofList [(key, .str text)]).session? = some text :=
    Evidence.session?_concat [] hkey text
  have hnothing (text : String) : (Evidence.ofList [(key, .str text)]).only admitted = .empty := by
    rw [Evidence.only_ofList admitted (by simp), List.filter_cons_of_neg (by exact hleft)]
    rfl
  have hboth := tracked_of_sessions hmake hsession (Evidence.coherent_ofList [(key, .str "a")])
    (Evidence.coherent_ofList [(key, .str "b")]) (by simp [hname]) 0
  refine ⟨[([(key, .str "a")], 0), ([(key, .str "b")], 0)], ?_⟩
  simp only [supplied, List.map_cons, List.map_nil, hnothing] at hboth ⊢
  rw [hboth, tracked_of_repeat hmake]
  decide

end IntervalTracker

/-! ## Flows -/

namespace TrackingElement

variable {υ α : Type} {e : TrackingElement} {evidence : Evidence} {keyed admitted : Filter}

/-- The flow has the evidence, and the tracker of the element, if there is one, goes by the filter. -/
structure At (e : TrackingElement) (evidence : Evidence) (keyed : Filter) (scene : Scene υ) : Prop where
  /-- The evidence of the flow. -/
  evidence_eq : scene.flow.evidence = evidence
  /-- What the tracker goes by. -/
  filter_eq : ∀ t, scene.shared.trackers.lookup e.number = some t → t.tracker.filter = keyed

/-- What passes by the evidence and leaves the trackers as they are misses nothing. -/
theorem heeds_modifyGet {f : Scene υ → α × Scene υ}
    (hpass : ∀ scene, f (scene.only admitted) = ((f scene).1, (f scene).2.only admitted))
    (hleaves : ∀ scene, (f scene).2.flow.evidence = scene.flow.evidence ∧
      (f scene).2.shared.trackers = scene.shared.trackers) :
    (modifyGet f : Act υ α).Heeds admitted (e.At evidence keyed) := by
  refine ⟨fun scene hscene => ⟨?_, ?_⟩, fun scene _ => ?_⟩
  · exact (hleaves scene).1.trans hscene.evidence_eq
  · intro t ht
    exact hscene.filter_eq t ((hleaves scene).2 ▸ ht)
  · rw [Act.runOn_modifyGet, Act.runOn_modifyGet, hpass]

/-- What is decided about a flow, and what that leaves. -/
theorem runOn_decide (e : TrackingElement) (scene : Scene υ) :
    (e.decide : Act υ Bool).runOn scene =
      match scene.shared.trackers.lookup e.number with
      | none => (.ok true, scene)
      | some t =>
        let (tracked, t) := t.track scene.flow.evidence (if e.clockMoves then scene.shared.now else 0)
        (.ok tracked, { scene with shared :=
          { scene.shared with trackers := scene.shared.trackers.put e.number t } }) := by
  rw [decide, Act.runOn_bind, Act.runOn_get]
  dsimp only
  rw [Act.runOn_onShared]
  cases scene.shared.trackers.lookup e.number <;> rfl

/-- To ask the tracker is to miss nothing that its fingerprints are not made of. -/
theorem heeds_decide (h : Fingerprint.ofEvidence keyed (evidence.only admitted) =
      Fingerprint.ofEvidence keyed evidence) :
    (e.decide : Act υ Bool).Heeds admitted (e.At evidence keyed) := by
  refine ⟨fun scene hscene => ?_, fun scene hscene => ?_⟩
  · rw [runOn_decide]
    cases htracker : scene.shared.trackers.lookup e.number with
    | none => exact hscene
    | some t =>
      refine ⟨hscene.evidence_eq, fun other hother => ?_⟩
      rw [Table.lookup_put, if_pos rfl, Option.some_inj] at hother
      rw [← hother]
      exact hscene.filter_eq t htracker
  · have hlookup : (scene.only admitted).shared.trackers = scene.shared.trackers := rfl
    rw [runOn_decide, runOn_decide, hlookup]
    cases htracker : scene.shared.trackers.lookup e.number with
    | none => rfl
    | some t =>
      have hsame : Fingerprint.ofEvidence t.tracker.filter (scene.only admitted).flow.evidence =
          Fingerprint.ofEvidence t.tracker.filter scene.flow.evidence := by
        rw [hscene.filter_eq t htracker, hscene.evidence_eq, ← h, ← hscene.evidence_eq]
        rfl
      dsimp only
      rw [IntervalTracker.track, IntervalTracker.track, Tracker.track, Tracker.track, hsame]
      rfl

/-- A result object is made or found whatever the evidence, which stays. -/
theorem objectAt_evidence (flow : Flow) (evidence : Evidence) (key : String) :
    { flow with evidence }.objectAt key =
        ((flow.objectAt key).1, { (flow.objectAt key).2 with evidence }) ∧
      (flow.objectAt key).2.evidence = flow.evidence := by
  have hdatum : { flow with evidence }.datum? key = flow.datum? key := rfl
  rw [Flow.objectAt, Flow.objectAt, hdatum]
  cases flow.datum? key with
  | none => exact ⟨rfl, rfl⟩
  | some datum => cases datum <;> exact ⟨rfl, rfl⟩

/-- To ask for the result object under a key misses nothing. -/
theorem heeds_objectAt (key : String) :
    (Act.objectAt key : Act υ ObjectId).Heeds admitted (e.At evidence keyed) := by
  refine .bind (heeds_modifyGet (fun scene => ?_) fun scene => ?_) fun found => ?_
  · dsimp only [Scene.only]
    rw [(objectAt_evidence scene.flow _ key).1, (objectAt_evidence scene.flow .empty key).2]
  · exact ⟨(objectAt_evidence scene.flow .empty key).2, rfl⟩
  · cases found with
    | ok id => exact .pure id
    | error fault => exact .fail fault

/-- An element with a tracker misses nothing that the fingerprints of its tracker are not made of. -/
theorem heeds_process (h : Fingerprint.ofEvidence keyed (evidence.only admitted) =
      Fingerprint.ofEvidence keyed evidence) :
    (e.process : Act υ Unit).Heeds admitted (e.At evidence keyed) := by
  refine .bind (heeds_decide h) fun tracked => .bind (heeds_objectAt e.key) fun object => ?_
  refine .bind (heeds_modifyGet (fun _ => rfl) fun _ => ⟨rfl, rfl⟩) fun _ => ?_
  split
  · exact heeds_modifyGet (fun _ => rfl) fun _ => ⟨rfl, rfl⟩
  · exact .pure ()

end TrackingElement

/-! ## What may be left out -/

/-- An element with a tracker declares all that its tracker goes by exactly if the tracker does not tell sessions
apart or the session of the evidence, if there is one, is declared. Who supplies only what some element of a
pipeline declares gets the same decisions, whatever the evidence, exactly if the tracker does not tell sessions
apart or the pipeline asks for the session. Where the session of a flow is not left out, the pipeline misses
nothing, if its other elements do not. -/
theorem TrackingElement.supplied_iff {υ : Type} {host : Host} {number : Nat} {key : String}
    {filter : Filter} {settings : TrackerSettings} {clockMoves : Bool} {element : TrackingElement}
    {tracker : IntervalTracker}
    (hbuild : build host number key filter settings clockMoves = .ok (element, tracker)) {p : Pipeline υ}
    (hmem : element.toElement ∈ p.elements) :
    (∀ pairs, Fingerprint.ofEvidence tracker.tracker.filter ((Evidence.ofList pairs).only element.filter) =
          Fingerprint.ofEvidence tracker.tracker.filter (.ofList pairs) ↔
        (settings.perSession = true → (Evidence.ofList pairs).SessionAdmitted element.filter)) ∧
      ((∀ given : List (List (String × Json) × Int),
          let events := given.map fun event => (Evidence.ofList event.1, event.2)
          (tracker.watch (IntervalTracker.supplied p.filter events)).map (·.tracked) =
            (tracker.watch events).map (·.tracked)) ↔
        (settings.perSession = true → ∀ key, isSessionKey key = true → p.filter.includes key = true)) ∧
      ∀ pairs, (settings.perSession = true → (Evidence.ofList pairs).SessionAdmitted p.filter) →
        (∀ x ∈ p.elements, x ≠ element.toElement →
          x.process.Heeds p.filter (element.At (.ofList pairs) tracker.tracker.filter)) →
        p.process.Heeds p.filter (element.At (.ofList pairs) tracker.tracker.filter) := by
  obtain ⟨rfl, hmake⟩ := of_build hbuild
  have hdeclared (key : String) (hkey : element.filter.includes key = true) : p.filter.includes key = true :=
    Pipeline.includes_filter_of_mem hmem hkey
  have hcoherent := Evidence.coherent_ofList
  refine ⟨fun pairs => ofEvidence_only_iff hmake (fun _ hkey => hkey) (hcoherent pairs), ⟨?_, ?_⟩, ?_⟩
  · intro h hsession key hkey
    by_contra hleft
    obtain ⟨given, hne⟩ := IntervalTracker.exists_tracked_ne hmake hsession hkey hleft
    exact hne (h given)
  · intro h given events
    have hsame : tracker.watch (IntervalTracker.supplied p.filter events) = tracker.watch events := by
      refine (tracker.watch_supplied_iff p.filter events).mpr fun event hevent => ?_
      obtain ⟨⟨pairs, now⟩, -, rfl⟩ := List.mem_map.mp hevent
      refine (ofEvidence_only_iff hmake hdeclared (hcoherent pairs)).mpr fun hsession key _ hkey => ?_
      exact h hsession key hkey
    exact congrArg (List.map (·.tracked)) hsame
  · intro pairs hsession hothers
    have hfingerprint := (ofEvidence_only_iff hmake hdeclared (hcoherent pairs)).mpr hsession
    refine Pipeline.heeds_process (fun _ h => ⟨h.1, h.2⟩) (fun _ _ h => ⟨h.1, h.2⟩) fun x hx => ?_
    by_cases helement : x = element.toElement
    · rw [helement]
      exact heeds_process hfingerprint
    · exact hothers x hx helement

/-- The address of a client, by which a tracker goes that tells sessions apart. -/
def addressFilter : Filter := .whitelist (.ofKeys ["server.client-ip"])

/-- Evidence of an address without a session is all declared. -/
theorem TrackingElement.supplied_iff_of_address :
    ∃ element tracker,
      build .bySize 0 "tracker" addressFilter { perSession := true } true = .ok (element, tracker) ∧
      let p : Pipeline Unit := { stages := [.single element.toElement] }
      let e := Evidence.ofList [("server.client-ip", .str "10.0.0.1")]
      element.toElement ∈ p.elements ∧
        Fingerprint.ofEvidence tracker.tracker.filter (e.only element.filter) =
          Fingerprint.ofEvidence tracker.tracker.filter e ∧
        p.process.Heeds p.filter (element.At e tracker.tracker.filter) := by
  obtain ⟨element, tracker, hbuild⟩ : ∃ element tracker,
      build .bySize 0 "tracker" addressFilter { perSession := true } true = .ok (element, tracker) := ⟨_, _, rfl⟩
  refine ⟨element, tracker, hbuild, ?_⟩
  intro p e
  have hmem : element.toElement ∈ p.elements := List.mem_singleton_self _
  have hsession (admitted : Filter) : e.SessionAdmitted admitted := by
    have hkeys : e.keys = ["server.client-ip"] := rfl
    intro key hkey hsession
    rw [hkeys, List.mem_singleton] at hkey
    rw [hkey] at hsession
    exact absurd hsession (by decide)
  obtain ⟨hfingerprint, -, hprocess⟩ := supplied_iff hbuild hmem
  refine ⟨hmem, (hfingerprint _).mpr fun _ => hsession _, hprocess _ (fun _ => hsession _) fun x hx hne => ?_⟩
  exact absurd (List.mem_singleton.mp hx) hne

/-- One address in two sessions: without the session the second event passes for a repeat. -/
theorem TrackingElement.supplied_ne_of_sessions :
    ∃ element tracker,
      build .bySize 0 "tracker" addressFilter { perSession := true } true = .ok (element, tracker) ∧
      let p : Pipeline Unit := { stages := [.single element.toElement] }
      let e (session : String) :=
        Evidence.ofList [("server.client-ip", .str "10.0.0.1"), ("session.id", .str session)]
      Fingerprint.ofEvidence tracker.tracker.filter ((e "a").only element.filter) ≠
          Fingerprint.ofEvidence tracker.tracker.filter (e "a") ∧
        (tracker.watch [(e "a", 0), (e "b", 0)]).map (·.tracked) = [true, true] ∧
        (tracker.watch (IntervalTracker.supplied p.filter [(e "a", 0), (e "b", 0)])).map (·.tracked) =
          [true, false] := by
  obtain ⟨element, tracker, hbuild⟩ : ∃ element tracker,
      build .bySize 0 "tracker" addressFilter { perSession := true } true = .ok (element, tracker) := ⟨_, _, rfl⟩
  refine ⟨element, tracker, hbuild, ?_⟩
  intro p e
  obtain ⟨hfilter, hmake⟩ := of_build hbuild
  have hasked (key : String) : p.filter.includes key = addressFilter.includes key := by
    rw [Pipeline.includes_filter, ← hfilter]
    exact Bool.or_false _
  have hnames : (["server.client-ip", "session.id"].map lowercase).Nodup := by decide +kernel
  have haddress : addressFilter.includes "server.client-ip" = true := by decide +kernel
  have hleft : ¬addressFilter.includes "session.id" = true := by decide +kernel
  have honly (session : String) :
      (e session).only p.filter = .ofList [("server.client-ip", .str "10.0.0.1")] := by
    rw [@Evidence.only_ofList p.filter [("server.client-ip", _), ("session.id", _)] hnames]
    simp only [hasked]
    rw [List.filter_cons_of_pos (by exact haddress), List.filter_cons_of_neg (by exact hleft), List.filter_nil]
  have hsession (session : String) : (e session).session? = some session :=
    Evidence.session?_concat [_] (by decide) session
  have hcoherent (session : String) : (e session).Coherent := Evidence.coherent_ofList _
  refine ⟨fun heq => ?_, ?_, ?_⟩
  · have hadmitted := (ofEvidence_only_iff hmake (fun _ h => hfilter ▸ h) (hcoherent "a")).mp heq rfl
    have hincluded := hadmitted "session.id" (List.mem_cons_of_mem _ List.mem_cons_self) (by decide)
    exact hleft (hfilter ▸ hincluded)
  · exact IntervalTracker.tracked_of_sessions hmake rfl (hcoherent "a") (hcoherent "b") (by simp [hsession]) 0
  · rw [IntervalTracker.supplied, List.map_cons, List.map_cons, List.map_nil, honly, honly]
    exact IntervalTracker.tracked_of_repeat hmake _ 0

end EvidenceFlow
