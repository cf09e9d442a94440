import EvidenceFlow.Proofs.Cache.FlightTable

/-!
# One load for each key

If nothing is taken from the store, the first value that a loader of a key returns is the last one: its
leader keeps it before it publishes the cell, and whoever claims a later cell looks once more and finds
it. So all calls for the key that end with a value end with this one.
-/

namespace EvidenceFlow

variable {κ ν ε : Type}

/-- Whether a use leaves what is held as it is. -/
def StoreCommand.isRead : StoreCommand κ ν → Bool
  | .get _ | .contains _ | .size | .keys _ => true
  | .put _ _ | .putIfAbsent _ _ | .remove _ | .reset => false

namespace CallStage

/-- The value that a call has got hold of. -/
def told? : CallStage ν ε → Option ν
  | .keep _ v | .publish _ (.ok v) | .leave _ (.ok v) | .ended (.value v) => some v
  | .publish _ (.error _) | .leave _ (.error _) | .ended (.failed _) | .ended (.panicked _)
  | .lookUp | .enter | .wait _ | .peek _ | .load _ => none

/-- Whether a call is about to keep a value. -/
def isKeep : CallStage ν ε → Bool
  | .keep _ _ => true
  | _ => false

/-- Whether a call has found nothing held after claiming its cell. -/
def isBusy : CallStage ν ε → Bool
  | .load _ | .keep _ _ => true
  | _ => false

/-- A busy call has claimed a cell. -/
theorem exists_claim?_of_isBusy {stage : CallStage ν ε} (h : stage.isBusy) :
    ∃ id, stage.claim? = some id := by
  cases stage <;> simp_all [isBusy, claim?]

/-- A call that is about to keep a value is busy. -/
theorem isBusy_of_isKeep {stage : CallStage ν ε} (h : stage.isKeep) : stage.isBusy := by
  cases stage <;> simp_all [isBusy, isKeep]

end CallStage

namespace SingleFlight

variable [DecidableEq κ]

/-- The values that loaders of a key return in the course of events. -/
def successes (key : κ) (s : SingleFlight κ ν ε) : List (LoadEvent κ ν ε) → List ν
  | [] => []
  | event :: rest =>
    match s.step? event with
    | none => []
    | some t => (s.successOf? key event).toList ++ successes key t rest

/-- What the store, the cells and the calls know of the value that a loader of a key has returned:
nobody knows of another one, it is held or about to be kept, and once it is held no call loads. -/
structure Agrees (s : SingleFlight κ ν ε) (owner : List κ) (key : κ) (loaded : Option ν) : Prop where
  /-- The segments of the store stand for lists. -/
  sound : s.cache.Sound
  /-- No other value is held. -/
  held : ∀ {v : ν}, s.cache.peek? key = some v → loaded = some v
  /-- No call has got hold of another value. -/
  told : ∀ {i : Nat} {c : LoadCall κ ν ε} {v : ν}, s.calls[i]? = some c → c.key = key →
    c.stage.told? = some v → loaded = some v
  /-- No other value has been published. -/
  published : ∀ {id : CellId} {v : ν}, s.cells[id]? = some (.published (.ok v)) →
    ∃ other, owner[id]? = some other ∧ (other = key → loaded = some v)
  /-- The value is held or about to be kept. -/
  kept : loaded.isSome → (s.cache.peek? key).isSome ∨
    ∃ (i : Nat) (c : LoadCall κ ν ε), s.calls[i]? = some c ∧ c.key = key ∧ c.stage.isKeep
  /-- No call loads a key whose value is held. -/
  idle : (s.cache.peek? key).isSome → ∀ {i : Nat} {c : LoadCall κ ν ε}, s.calls[i]? = some c →
    c.key = key → c.stage.isBusy = false

namespace Agrees

variable {s : SingleFlight κ ν ε} {owner : List κ} {key : κ} {loaded : Option ν} {call : Nat}
  {c : LoadCall κ ν ε}

/-- No loader has returned a value yet. -/
theorem start (place : κ → Nat) {settings : LruSettings} (h : settings.validate = .ok ()) (key : κ) :
    (SingleFlight.start place settings : SingleFlight κ ν ε).Agrees [] key none := by
  have hnone := Lru.peek?_ofSettings (ν := ν) place h key
  refine ⟨.ofSettings place h, ?_, ?_, ?_, ?_, ?_⟩ <;> intros <;> simp_all [SingleFlight.start]

/-- A store that holds the same under the key will do as well. -/
theorem of_cache (h : s.Agrees owner key loaded) {cache : Lru κ ν} (hsound : cache.Sound)
    (hpeek : cache.peek? key = s.cache.peek? key) : { s with cache }.Agrees owner key loaded := by
  refine ⟨hsound, ?_, h.told, h.published, ?_, ?_⟩
  · intro v hv
    exact h.held (hpeek ▸ hv)
  · intro hloaded
    change (cache.peek? key).isSome ∨ _
    rw [hpeek]
    exact h.kept hloaded
  · intro hsome
    change (cache.peek? key).isSome at hsome
    rw [hpeek] at hsome
    exact h.idle hsome

/-- A call moves on that is not about to keep a value: it must have got hold of no other value, and must
not begin to load once the value is held. -/
theorem move (h : s.Agrees owner key loaded) (hc : s.calls[call]? = some c) {stage : CallStage ν ε}
    (htold : ∀ v, c.key = key → stage.told? = some v → loaded = some v)
    (hkeep : c.key = key → c.stage.isKeep = false)
    (hbusy : c.key = key → (s.cache.peek? key).isSome → stage.isBusy = false) :
    (s.move call stage).Agrees owner key loaded := by
  refine ⟨h.sound, h.held, ?_, h.published, ?_, ?_⟩
  · intro i d v hd hkey hv
    rcases call_of_move hc hd with ⟨-, rfl⟩ | ⟨-, hd⟩
    · exact htold v hkey hv
    · exact h.told hd hkey hv
  · intro hloaded
    rcases h.kept hloaded with hheld | ⟨i, d, hd, hkey, hdkeep⟩
    · exact Or.inl hheld
    · by_cases hi : i = call
      · subst hi
        rw [hc] at hd
        cases hd
        rw [hkeep hkey] at hdkeep
        cases hdkeep
      · exact Or.inr ⟨i, d, (call_move_of_ne hi stage).trans hd, hkey, hdkeep⟩
  · intro hheld i d hd hkey
    rcases call_of_move hc hd with ⟨-, rfl⟩ | ⟨-, hd⟩
    · exact hbusy hkey hheld
    · exact h.idle hheld hd hkey

/-- A call moves on without getting hold of a value. -/
theorem move_silent (h : s.Agrees owner key loaded) (hc : s.calls[call]? = some c)
    {stage : CallStage ν ε} (htold : stage.told? = none) (hbusy : stage.isBusy = false)
    (hkeep : c.key = key → c.stage.isKeep = false) : (s.move call stage).Agrees owner key loaded := by
  apply h.move hc
  · intro v _ hv
    rw [htold] at hv
    cases hv
  · exact hkeep
  · exact fun _ _ => hbusy

/-- A cell is set to something that tells of no other value. -/
theorem setCell (h : s.Agrees owner key loaded) {id : CellId} (hlt : id < s.cells.length)
    {other : κ} (hid : owner[id]? = some other) {cell : Cell ν ε}
    (hcell : ∀ v, other = key → cell = .published (.ok v) → loaded = some v) :
    (s.setCell id cell).Agrees owner key loaded := by
  refine ⟨h.sound, h.held, h.told, ?_, h.kept, h.idle⟩
  intro place v hv
  rw [cell_of_setCell s id place cell hlt] at hv
  split at hv
  · next hsame =>
    subst hsame
    exact ⟨other, hid, fun hkey => hcell v hkey (Option.some.inj hv)⟩
  · exact h.published hv

/-- Cells that are made later do not matter. -/
theorem of_grown (h : s.Agrees owner key loaded) {owner' : List κ} (hgrown : owner <+: owner') :
    s.Agrees owner' key loaded := by
  refine ⟨h.sound, h.held, h.told, ?_, h.kept, h.idle⟩
  intro id v hv
  obtain ⟨other, hother, hloaded⟩ := h.published hv
  obtain ⟨later, rfl⟩ := hgrown
  refine ⟨other, ?_, hloaded⟩
  rwa [List.getElem?_append_left (List.getElem?_eq_some_iff.mp hother).1]

/-- A call that begins knows of no value. -/
theorem begin (h : s.Agrees owner key loaded) (other : κ) :
    ({ s with calls := s.calls ++ [{ key := other }] } : SingleFlight κ ν ε).Agrees owner key
      loaded := by
  refine ⟨h.sound, h.held, ?_, h.published, ?_, ?_⟩
  · intro i d v hd hkey hv
    rcases call_of_begin hd with hd | rfl
    · exact h.told hd hkey hv
    · simp [CallStage.told?] at hv
  · intro hloaded
    rcases h.kept hloaded with hheld | ⟨i, d, hd, hkey, hkeep⟩
    · exact Or.inl hheld
    · exact Or.inr ⟨i, d, call_begin hd other, hkey, hkeep⟩
  · intro hheld i d hd hkey
    rcases call_of_begin hd with hd | rfl
    · exact h.idle hheld hd hkey
    · rfl

/-- While a call of the key is busy nothing is held. -/
theorem peek?_of_isBusy (h : s.Agrees owner key loaded) (hc : s.calls[call]? = some c)
    (hkey : c.key = key) (hbusy : c.stage.isBusy = true) : s.cache.peek? key = none := by
  cases hheld : s.cache.peek? key with
  | none => rfl
  | some held =>
    have hidle := h.idle (by rw [hheld]; rfl) hc hkey
    rw [hbusy] at hidle
    cases hidle

/-- A loader of the key returns a value: it is the first one to do so. -/
theorem value (h : s.Agrees owner key loaded) (ho : s.Orderly owner)
    (hc : s.calls[call]? = some c) (hkey : c.key = key) {id : CellId} (hstage : c.stage = .load id)
    (v : ν) : loaded = none ∧ (s.move call (.keep id v)).Agrees owner key (some v) := by
  have hunheld := h.peek?_of_isBusy hc hkey (by rw [hstage]; rfl)
  have hfirst : loaded = none := by
    cases hloaded : loaded with
    | none => rfl
    | some w =>
      exfalso
      rcases h.kept (by rw [hloaded]; rfl) with hheld | ⟨i, d, hd, hdkey, hkeep⟩
      · rw [hunheld] at hheld
        cases hheld
      · obtain ⟨other, hother⟩ := CallStage.exists_claim?_of_isBusy (CallStage.isBusy_of_isKeep hkeep)
        have hclaim : c.stage.claim? = some id := by rw [hstage]; rfl
        obtain rfl := ho.claim_unique hd hc (hdkey.trans hkey.symm) hother hclaim
        rw [hc] at hd
        cases hd
        rw [hstage] at hkeep
        cases hkeep
  subst hfirst
  refine ⟨rfl, h.sound, ?_, ?_, ?_, ?_, ?_⟩
  · intro w hw
    cases h.held hw
  · intro i d w hd hdkey hw
    rcases call_of_move hc hd with ⟨-, rfl⟩ | ⟨-, hd⟩
    · exact hw
    · cases h.told hd hdkey hw
  · intro place w hw
    obtain ⟨other, hother, hloaded⟩ := h.published hw
    exact ⟨other, hother, fun hsame => nomatch hloaded hsame⟩
  · intro _
    exact Or.inr ⟨call, _, call_move_self hc _, hkey, rfl⟩
  · intro hheld
    change (s.cache.peek? key).isSome at hheld
    rw [hunheld] at hheld
    cases hheld

/-- A leader keeps the value that its loader has returned. -/
theorem keep (h : s.Agrees owner key loaded) (ho : s.Orderly owner)
    (hc : s.calls[call]? = some c) {id : CellId} {v : ν} (hstage : c.stage = .keep id v)
    (hroom : (s.cache.putIfAbsent c.key v).2.evictions = s.cache.evictions) :
    ({ s with cache := (s.cache.putIfAbsent c.key v).2 }.move call
      (.publish id (.ok (s.cache.putIfAbsent c.key v).1))).Agrees owner key loaded := by
  have hsound : (s.cache.putIfAbsent c.key v).2.Sound := h.sound.answer (.putIfAbsent c.key v)
  by_cases hkey : c.key = key
  · have hloaded : loaded = some v := h.told hc hkey (by rw [hstage]; rfl)
    have hclaim : c.stage.claim? = some id := by rw [hstage]; rfl
    have hunheld := h.peek?_of_isBusy hc hkey (by rw [hstage]; rfl)
    have hgiven : (s.cache.putIfAbsent c.key v).1 = v := by
      rw [h.sound.putIfAbsent_fst, hkey, hunheld, Option.getD_none]
    have hpeek : (s.cache.putIfAbsent c.key v).2.peek? key = some v := by
      rw [Lru.putIfAbsent_snd, hkey, h.sound.peek?_inserted_self, hunheld]
      rfl
    rw [hgiven]
    refine ⟨hsound, ?_, ?_, h.published, ?_, ?_⟩
    · intro w hw
      rw [hloaded, ← hpeek]
      exact hw
    · intro i d w hd hdkey hw
      rcases call_of_move (s := { s with cache := _ }) hc hd with ⟨-, rfl⟩ | ⟨-, hd⟩
      · exact hloaded.trans hw
      · exact h.told hd hdkey hw
    · intro _
      exact Or.inl (congrArg Option.isSome hpeek)
    · intro _ i d hd hdkey
      rcases call_of_move (s := { s with cache := _ }) hc hd with ⟨-, rfl⟩ | ⟨hi, hd⟩
      · rfl
      · cases hbusy : d.stage.isBusy with
        | false => rfl
        | true =>
          obtain ⟨other, hother⟩ := CallStage.exists_claim?_of_isBusy hbusy
          exact absurd (ho.claim_unique hd hc (hdkey.trans hkey.symm) hother hclaim) hi
  · have hpeek : (s.cache.putIfAbsent c.key v).2.peek? key = s.cache.peek? key := by
      rw [Lru.putIfAbsent_snd] at hroom ⊢
      rcases h.sound.peek?_inserted_of_ne (Ne.symm hkey) v false with hsame | ⟨hlt, -⟩
      · exact hsame
      · omega
    apply (h.of_cache hsound hpeek).move hc
    · exact fun _ hsame => absurd hsame hkey
    · exact fun hsame => absurd hsame hkey
    · exact fun hsame => absurd hsame hkey

/-- A call takes the cell of a key. -/
theorem takeCell (h : s.Agrees owner key loaded) (other : κ) :
    (s.takeCell other).2.Agrees owner key loaded := by
  rw [SingleFlight.takeCell]
  split
  · exact h
  · refine ⟨h.sound, h.held, h.told, ?_, h.kept, h.idle⟩
    intro id v hv
    by_cases hlt : id < s.cells.length
    · exact h.published ((List.getElem?_append_left hlt).symm.trans hv)
    · have hlast := (List.getElem?_append_right (Nat.not_lt.mp hlt)).symm.trans hv
      simp [List.getElem?_singleton] at hlast

/-- Every turn leaves all in agreement on the value that has been returned first; a value that is
returned in the turn is the first one. -/
theorem turn (h : s.Agrees owner key loaded) (ho : s.Orderly owner)
    (hc : s.calls[call]? = some c) {t : SingleFlight κ ν ε} {returned : Option ν}
    (hturn : Turn s call c returned t) (hroom : t.cache.evictions = s.cache.evictions) :
    ∃ loaded', t.Agrees owner key loaded' ∧
      loaded'.toList = loaded.toList ++ (if c.key = key then returned else none).toList := by
  have hfits := ho.fits hc
  have hunkept : ∀ {stage : CallStage ν ε}, c.stage = stage → stage.isKeep = false →
      c.key = key → c.stage.isKeep = false := fun hstage hfalse _ => hstage ▸ hfalse
  have hunreturned : loaded.toList =
      loaded.toList ++ (if c.key = key then none else none : Option ν).toList := by
    simp
  cases hturn with
  | hit value hstage hfound =>
    have hgot : s.cache.peek? c.key = some value := by rw [← h.sound.get_fst, hfound]
    have hcache := h.of_cache (h.sound.answer (.get c.key)) (h.sound.peek?_get c.key key)
    refine ⟨loaded, hcache.move hc ?_ (hunkept hstage rfl) (fun _ _ => rfl), hunreturned⟩
    rintro v rfl hv
    cases hv
    exact h.held hgot
  | miss hstage hfound =>
    have hcache := h.of_cache (h.sound.answer (.get c.key)) (h.sound.peek?_get c.key key)
    exact ⟨loaded, hcache.move_silent hc rfl rfl (hunkept hstage rfl), hunreturned⟩
  | enter hstage =>
    have hc' : (s.takeCell c.key).2.calls[call]? = some c := by
      rw [SingleFlight.takeCell]
      split <;> exact hc
    exact ⟨loaded, (h.takeCell c.key).move_silent hc' rfl rfl (hunkept hstage rfl), hunreturned⟩
  | claim id hstage hcell =>
    have hid : owner[id]? = some c.key := hfits.own id (by rw [hstage]; rfl)
    have hset : (s.setCell id .claimed).Agrees owner key loaded := by
      apply h.setCell (ho.lt_of_owner hid) hid
      intro v hkey hcell
      cases hcell
    exact ⟨loaded, hset.move_silent hc rfl rfl (hunkept hstage rfl), hunreturned⟩
  | join id result hstage hcell =>
    refine ⟨loaded, h.move hc ?_ (hunkept hstage rfl) (fun _ _ => rfl), hunreturned⟩
    intro v hkey hv
    cases result with
    | error e => cases hv
    | ok w =>
      cases hv
      obtain ⟨other, hother, hloaded⟩ := h.published hcell
      rw [hfits.own id (by rw [hstage]; rfl)] at hother
      exact hloaded ((Option.some.inj hother).symm.trans hkey)
  | found id value hstage hheld =>
    refine ⟨loaded, h.move hc ?_ (hunkept hstage rfl) (fun _ _ => rfl), hunreturned⟩
    rintro v rfl hv
    cases hv
    exact h.held hheld
  | absent id hstage hheld =>
    refine ⟨loaded, h.move hc ?_ (hunkept hstage rfl) ?_, hunreturned⟩
    · intro v hkey hv
      cases hv
    · rintro rfl hsome
      rw [hheld] at hsome
      cases hsome
  | value id value hstage =>
    by_cases hkey : c.key = key
    · obtain ⟨rfl, hagrees⟩ := h.value ho hc hkey hstage value
      exact ⟨some value, hagrees, by rw [if_pos hkey]; rfl⟩
    · refine ⟨loaded, h.move hc ?_ ?_ ?_, by rw [if_neg hkey]; simp⟩
      · exact fun _ hsame => absurd hsame hkey
      · exact fun hsame => absurd hsame hkey
      · exact fun hsame => absurd hsame hkey
  | failed id e hstage =>
    exact ⟨loaded, h.move_silent hc rfl rfl (hunkept hstage rfl), hunreturned⟩
  | panicked id message hstage =>
    have hid : owner[id]? = some c.key := hfits.own id (by rw [hstage]; rfl)
    have hset : (s.setCell id .vacant).Agrees owner key loaded := by
      apply h.setCell (ho.lt_of_owner hid) hid
      intro v hkey hcell
      cases hcell
    exact ⟨loaded, hset.move_silent hc rfl rfl (hunkept hstage rfl), hunreturned⟩
  | keep id value hstage => exact ⟨loaded, h.keep ho hc hstage hroom, hunreturned⟩
  | publish id result hstage =>
    have hid : owner[id]? = some c.key := hfits.own id (by rw [hstage]; rfl)
    have htold : ∀ v, c.key = key → result = .ok v → loaded = some v := by
      rintro v hkey rfl
      exact h.told hc hkey (by rw [hstage]; rfl)
    have hset : (s.setCell id (.published result)).Agrees owner key loaded :=
      h.setCell (ho.lt_of_owner hid) hid fun v hkey hcell => htold v hkey (Cell.published.inj hcell)
    refine ⟨loaded, hset.move hc ?_ (hunkept hstage rfl) (fun _ _ => rfl), hunreturned⟩
    intro v hkey hv
    cases result with
    | error e => cases hv
    | ok w =>
      cases hv
      exact htold v hkey rfl
  | leave id result hstage =>
    have hc' : (s.strike c.key id).calls[call]? = some c := by
      rw [SingleFlight.strike]
      split <;> exact hc
    have hstruck : (s.strike c.key id).Agrees owner key loaded := by
      rw [SingleFlight.strike]
      split
      · exact ⟨h.sound, h.held, h.told, h.published, h.kept, h.idle⟩
      · exact h
    refine ⟨loaded, hstruck.move hc' ?_ (hunkept hstage rfl) (fun _ _ => rfl), hunreturned⟩
    intro v hkey hv
    refine h.told hc hkey ?_
    rw [hstage]
    cases result with
    | error e => cases hv
    | ok w => exact hv

/-- A use that only reads leaves all in agreement. -/
theorem use (h : s.Agrees owner key loaded) {command : StoreCommand κ ν} (hread : command.isRead) :
    { s with cache := (s.cache.answer command).2 }.Agrees owner key loaded := by
  apply h.of_cache (h.sound.answer command)
  cases command with
  | get other => exact h.sound.peek?_get other key
  | contains other => rfl
  | size => rfl
  | keys i => rfl
  | put other v => cases hread
  | putIfAbsent other v => cases hread
  | remove other => cases hread
  | reset => cases hread

/-- Every event leaves all in agreement, if it only reads the store and pushes nothing out. -/
theorem step (h : s.Agrees owner key loaded) (ho : s.Orderly owner) {t : SingleFlight κ ν ε}
    {event : LoadEvent κ ν ε} (hstep : s.step? event = some t)
    (hread : ∀ command, event = .use command → command.isRead)
    (hroom : t.cache.evictions = s.cache.evictions) :
    ∃ loaded', t.Agrees owner key loaded' ∧
      loaded'.toList = loaded.toList ++ (s.successOf? key event).toList := by
  rcases step_cases hstep with ⟨other, rfl, rfl⟩ | ⟨call, c, returned, hc, hturn, hsuccess⟩ |
    ⟨command, rfl, rfl⟩
  · exact ⟨loaded, h.begin other, by simp [successOf?]⟩
  · rw [hsuccess]
    exact h.turn ho hc hturn hroom
  · exact ⟨loaded, h.use (hread command rfl), by simp [successOf?]⟩

/-- All calls that end with a value end with the one that was returned first. -/
theorem endOf?_eq (h : s.Agrees owner key loaded) {i : Nat} {v : ν}
    (hkey : s.calls[i]?.map (·.key) = some key) (hend : s.endOf? i = some (.value v)) :
    loaded = some v := by
  unfold endOf? at hend
  split at hend
  · next other how hc =>
    cases hend
    rw [hc] at hkey
    exact h.told hc (Option.some.inj hkey) rfl
  · cases hend

end Agrees

/-! ## Runs -/

/-- A step that does not drop everything takes nothing back from the count of what was pushed out. -/
theorem evictions_le_step {s t : SingleFlight κ ν ε} {event : LoadEvent κ ν ε}
    (hstep : s.step? event = some t) (hread : ∀ command, event = .use command → command.isRead) :
    s.cache.evictions ≤ t.cache.evictions := by
  rcases step_cases hstep with ⟨other, rfl, rfl⟩ | ⟨call, c, returned, hc, hturn, -⟩ |
    ⟨command, rfl, rfl⟩
  · exact Nat.le_refl _
  · cases hturn with
    | hit value hstage hfound => exact Nat.le_of_eq (s.cache.evictions_get c.key).symm
    | miss hstage hfound => exact Nat.le_of_eq (s.cache.evictions_get c.key).symm
    | enter hstage =>
      rw [takeCell]
      split <;> exact Nat.le_refl _
    | keep id value hstage =>
      have hle := s.cache.evictions_le_inserted c.key value false
      rwa [← Lru.putIfAbsent_snd] at hle
    | leave id result hstage =>
      rw [strike]
      split <;> exact Nat.le_refl _
    | claim | join | found | absent | value | failed | panicked | publish => exact Nat.le_refl _
  · have hreads := hread command rfl
    cases command with
    | get other => exact Nat.le_of_eq (s.cache.evictions_get other).symm
    | contains other => exact Nat.le_refl _
    | size => exact Nat.le_refl _
    | keys i => exact Nat.le_refl _
    | put other v => cases hreads
    | putIfAbsent other v => cases hreads
    | remove other => cases hreads
    | reset => cases hreads

/-- Neither does a run. -/
theorem evictions_le_run {s t : SingleFlight κ ν ε} {events : List (LoadEvent κ ν ε)}
    (hrun : s.run? events = some t) (hread : ∀ command, .use command ∈ events → command.isRead) :
    s.cache.evictions ≤ t.cache.evictions := by
  induction events generalizing s with
  | nil =>
    cases hrun
    exact Nat.le_refl _
  | cons event rest ih =>
    obtain ⟨u, hstep, hrest⟩ := Option.bind_eq_some_iff.mp hrun
    have hfirst := evictions_le_step hstep fun command hevent => hread command (by simp [hevent])
    have hlater := ih hrest fun command hmem => hread command (List.mem_cons_of_mem _ hmem)
    exact Nat.le_trans hfirst hlater

/-- Every run keeps the order, and leaves the cells in the table attended. -/
theorem orderly_of_run {s t : SingleFlight κ ν ε} {owner : List κ} (ho : s.Orderly owner)
    (hw : s.Watched) {events : List (LoadEvent κ ν ε)} (hrun : s.run? events = some t) :
    (∃ owner' : List κ, t.Orderly owner') ∧ t.Watched := by
  induction events generalizing s owner with
  | nil =>
    cases hrun
    exact ⟨⟨owner, ho⟩, hw⟩
  | cons event rest ih =>
    obtain ⟨u, hstep, hrest⟩ := Option.bind_eq_some_iff.mp hrun
    obtain ⟨owner', -, ho'⟩ := ho.step hstep
    exact ih ho' (hw.step ho hstep) hrest

/-- A run that only reads the store and pushes nothing out leaves all in agreement on what loaders of
the key have returned. -/
theorem agrees_of_run {s t : SingleFlight κ ν ε} {owner : List κ} {key : κ} {loaded : Option ν}
    (ho : s.Orderly owner) (h : s.Agrees owner key loaded) {events : List (LoadEvent κ ν ε)}
    (hrun : s.run? events = some t) (hread : ∀ command, .use command ∈ events → command.isRead)
    (hroom : t.cache.evictions = s.cache.evictions) :
    ∃ (owner' : List κ) (loaded' : Option ν), t.Agrees owner' key loaded' ∧
      loaded'.toList = loaded.toList ++ successes key s events := by
  induction events generalizing s owner loaded with
  | nil =>
    cases hrun
    exact ⟨owner, loaded, h, by simp [successes]⟩
  | cons event rest ih =>
    obtain ⟨u, hstep, hrest⟩ := Option.bind_eq_some_iff.mp hrun
    have hreads : ∀ command, event = .use command → command.isRead := fun command hevent =>
      hread command (by simp [hevent])
    have hlater : ∀ command, .use command ∈ rest → command.isRead := fun command hmem =>
      hread command (List.mem_cons_of_mem _ hmem)
    have hfirst := evictions_le_step hstep hreads
    have hthen := evictions_le_run hrest hlater
    obtain ⟨owner', hgrown, ho'⟩ := ho.step hstep
    obtain ⟨loaded', h', hloaded'⟩ := h.step ho hstep hreads (by omega)
    obtain ⟨owner'', loaded'', h'', hloaded''⟩ := ih ho' (h'.of_grown hgrown) hrest hlater (by omega)
    refine ⟨owner'', loaded'', h'', ?_⟩
    rw [hloaded'', hloaded', successes, hstep, List.append_assoc]

/-- Calls that load keys of a fresh store side by side, in any order of their steps and whatever else is
done with the store: at most one loader of a key runs at a time. If the store is only read otherwise and
nothing is pushed out, at most one loader of a key returns a value, and all calls for the key that end
with a value end with that one. When all calls have ended and no loader was broken off, the table of
running loads is empty. -/
theorem run_single_flight (place : κ → Nat) {settings : LruSettings}
    (hvalid : settings.validate = .ok ()) {events : List (LoadEvent κ ν ε)} {s : SingleFlight κ ν ε}
    (hrun : (SingleFlight.start place settings).run? events = some s) :
    (∀ key i j, s.isLoading key i → s.isLoading key j → i = j) ∧
      ((∀ command, .use command ∈ events → command.isRead) → s.cache.evictions = 0 →
        ∀ key, (successes key (.start place settings) events).length ≤ 1 ∧
          ∀ i v, s.calls[i]?.map (·.key) = some key → s.endOf? i = some (.value v) →
            successes key (.start place settings) events = [v]) ∧
      ((∀ i, i < s.calls.length → ∃ how, s.endOf? i = some how) →
        (∀ i message, s.endOf? i ≠ some (.panicked message)) → s.inFlight = []) := by
  obtain ⟨⟨owner, ho⟩, hw⟩ := orderly_of_run (.start place settings) (.start place settings) hrun
  refine ⟨fun key i j hi hj => ho.isLoading_unique hi hj, ?_, hw.inFlight_eq_nil⟩
  intro hread hroom key
  obtain ⟨owner', loaded, h, hloaded⟩ := agrees_of_run (.start place settings)
    (.start place hvalid key) hrun hread hroom
  rw [Option.toList_none, List.nil_append] at hloaded
  rw [← hloaded]
  refine ⟨by cases loaded <;> simp, ?_⟩
  intro i v hkey hend
  rw [h.endOf?_eq hkey hend]
  rfl

/-- The events of two calls for one key that both find nothing, of which the second waits for the
loader of the first. -/
def sharedLoad : List (LoadEvent Nat Nat String) :=
  [.begin 1, .begin 1, .advance 0, .advance 1, .advance 0, .advance 1, .advance 0, .advance 0,
    .loaded 0 (.value 7), .advance 0, .advance 0, .advance 0, .advance 1]

/-- Two calls for one key share one load, and nothing stays in the table. -/
theorem run_single_flight_of_sharedLoad :
    ∃ s, (SingleFlight.start id { capacity := 2 }).run? sharedLoad = some s ∧
      successes 1 (.start id { capacity := 2 }) sharedLoad = [7] ∧
      s.endOf? 1 = some (.value 7) ∧ s.inFlight = [] := by
  have hvalid : LruSettings.validate { capacity := 2 } = .ok () := rfl
  have hrun : (SingleFlight.start id { capacity := 2 }).run? sharedLoad = some _ := rfl
  obtain ⟨-, hshared, hleft⟩ := run_single_flight id hvalid hrun
  refine ⟨_, hrun, ?_, rfl, ?_⟩
  · exact (hshared (by simp [sharedLoad]) rfl 1).2 1 7 rfl rfl
  · apply hleft
    · intro i hi
      have hi : i < 2 := hi
      have hcases : i = 0 ∨ i = 1 := by omega
      rcases hcases with rfl | rfl <;> exact ⟨.value 7, rfl⟩
    · intro i message hbroken
      rcases i with _ | _ | i <;> cases hbroken

end SingleFlight

end EvidenceFlow
