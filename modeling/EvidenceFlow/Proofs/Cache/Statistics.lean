import EvidenceFlow.Proofs.Cache.Room

/-!
# The balance of a store

What a store counts can be told from what has been done with it since everything was dropped last. Each
look-up is counted, as one that found a value or as one that did not. Each new key comes in as one entry, and
each entry goes out in one of two ways: it is removed, or it is pushed out by a new key of a full segment, which
is counted. So the entries that are there are those that came in and did not go out.
-/

namespace EvidenceFlow

variable {κ ν : Type}

/-! ## Numbers of entries -/

namespace Recency

variable [DecidableEq κ] {r : Recency κ ν}

/-- A key stands for one entry at most. -/
theorem length_others (h : r.keys.Nodup) (key : κ) :
    (r.others key).length + (if (r.peek? key).isSome then 1 else 0) = r.size := by
  have hkeysOthers : (r.others key).map (·.1) = r.keys.erase key := by
    rw [h.erase_eq_filter, Recency.keys, List.filter_map]
    exact congrArg (List.map Prod.fst) (List.filter_congr fun entry _ => by simp [bne, beq_eq_decide])
  have hlengthEq : (r.others key).length = (r.keys.erase key).length := by
    rw [← hkeysOthers, List.length_map]
  have hsizeEq : r.size = r.keys.length := (List.length_map _).symm
  rw [hlengthEq, hsizeEq, List.length_erase]
  by_cases hthere : key ∈ r.keys
  · rw [if_pos hthere, if_pos ((r.mem_keys_iff key).mp hthere)]
    exact Nat.succ_pred_eq_of_pos (List.length_pos_of_mem hthere)
  · rw [if_neg hthere, if_neg fun held => hthere ((r.mem_keys_iff key).mpr held)]
    rfl

/-- A look-up moves entries at most. -/
theorem size_get (h : r.keys.Nodup) (key : κ) : (r.get key).2.size = r.size := by
  have hothers := length_others h key
  rw [get]
  cases hheld : r.peek? key with
  | none => rfl
  | some value =>
    rw [hheld] at hothers
    exact hothers

/-- A removed key takes its entry with it. -/
theorem size_remove (h : r.keys.Nodup) (key : κ) :
    (r.remove key).2.size + (if (r.peek? key).isSome then 1 else 0) = r.size :=
  length_others h key

/-- A new key brings an entry in, and pushes one out if there is no room. -/
theorem size_put (h : r.keys.Nodup) (hroom : 0 < r.capacity) (update : Bool) (key : κ) (value : ν) :
    (r.put update key value).size + (if r.peek? key = none ∧ r.capacity ≤ r.size then 1 else 0) =
      r.size + if r.peek? key = none then 1 else 0 := by
  have hothers := length_others h key
  rw [put]
  cases hheld : r.peek? key with
  | none =>
    by_cases hfull : r.capacity ≤ r.size
    · have hpushed : (r.push key value).size = r.size := by
        have hsomeEntry : 0 < r.entries.length := Nat.lt_of_lt_of_le hroom hfull
        rw [size, push, if_pos hfull, List.length_cons, List.length_dropLast]
        exact Nat.succ_pred_eq_of_pos hsomeEntry
      simp [hpushed, hfull]
    · have hpushed : (r.push key value).size = r.size + 1 := by
        rw [size, push, if_neg hfull, List.length_cons, size]
      simp [hpushed, hfull]
  | some value =>
    rw [hheld] at hothers
    cases update with
    | false => simp
    | true => simpa [size] using hothers

end Recency

namespace Lru

variable {c : Lru κ ν}

/-- A segment that is set brings its entries in place of those of the segment that was there. -/
theorem size_setSegment (c : Lru κ ν) (key : κ) (segment : Segment κ ν) :
    (c.setSegment key segment).size + (c.segment key).size = c.size + segment.size := by
  have hsizeEq (d : Lru κ ν) : d.size = (d.segments.toList.map Segment.size).sum := by
    rw [size, List.sum_eq_foldl, List.foldl_map]
  obtain ⟨before, after, hsplit⟩ : ∃ before after, c.segments.toList = before ++ c.segment key :: after ∧
      (c.setSegment key segment).segments.toList = before ++ segment :: after := by
    refine ⟨c.segments.toList.take (c.segmentOf key), c.segments.toList.drop (c.segmentOf key + 1), ?_, ?_⟩
    · rw [Lru.segment, Fin.getElem_fin, ← Array.getElem_toList, List.getElem_cons_drop, List.take_append_drop]
    · simp [setSegment, List.set_eq_take_append_cons_drop]
  rw [hsizeEq, hsizeEq, hsplit.1, hsplit.2]
  simp only [List.map_append, List.map_cons, List.sum_append, List.sum_cons]
  omega

/-- Counting an eviction leaves the size alone. -/
@[simp] theorem size_countEviction (c : Lru κ ν) (done : Segment.Insertion ν) :
    (c.countEviction done).size = c.size := by
  rcases done with (_ | _) | _ | _ <;> rfl

/-- If a segment is set that stands for another list, the difference of the lists is that of the stores. -/
theorem Holds.size_setSegment {lists : Nat → Recency κ ν} (h : c.Holds lists) (key : κ) {segment : Segment κ ν}
    {r : Recency κ ν} (holds : segment.Holds r) :
    (c.setSegment key segment).size + (lists (c.segmentOf key)).size = c.size + r.size := by
  obtain ⟨slots, hbefore⟩ := h.segment_of key
  obtain ⟨slots', hafter⟩ := holds
  have hsizes := c.size_setSegment key segment
  rwa [hbefore.size_eq, hafter.size_eq] at hsizes

variable [DecidableEq κ]

/-- The list of a segment holds each key once. -/
theorem Holds.keys_nodup {lists : Nat → Recency κ ν} (h : c.Holds lists) (key : κ) :
    (lists (c.segmentOf key)).keys.Nodup := by
  obtain ⟨slots, holds⟩ := h.segment_of key
  exact holds.keys_nodup

/-- A look-up brings no entry in and takes none out. -/
theorem Sound.size_get (h : c.Sound) (key : κ) : (c.get key).2.size = c.size := by
  obtain ⟨lists, h⟩ := h
  obtain ⟨-, hafter⟩ := (h.segment_of key).get key
  have hsizes := h.size_setSegment key hafter
  rw [Recency.size_get (h.keys_nodup key)] at hsizes
  have hsetSize : (c.get key).2.size = (c.setSegment key ((c.segment key).get key).2).size := by
    rw [Lru.get]
    rcases (c.segment key).get key with ⟨_ | value, segment⟩ <;> rfl
  omega

/-- A removed key takes one entry with it. -/
theorem Sound.size_remove (h : c.Sound) (key : κ) :
    (c.remove key).2.size + (if (c.remove key).1.isSome then 1 else 0) = c.size := by
  obtain ⟨lists, h⟩ := h
  obtain ⟨hfound, hafter⟩ := (h.segment_of key).remove key
  have hsizes := h.size_setSegment key hafter
  have hremoved := Recency.size_remove (h.keys_nodup key) key
  rw [(h.remove key).1]
  change (c.setSegment key ((c.segment key).remove key).2).size + _ = _
  omega

/-- A new key pushes an entry out exactly if its segment is full. -/
theorem Sound.evictions_inserted (h : c.Sound) (key : κ) (value : ν) (update : Bool) :
    (c.inserted key value update).evictions =
      c.evictions + if c.contains key = false ∧ c.Full key then 1 else 0 := by
  have habsent := h.contains_eq_false_iff key
  obtain ⟨lists, h⟩ := h
  rw [h.evictions_inserted_eq]
  simp only [h.full_iff, habsent]

/-- A new key brings one entry in, which takes the place of one that is pushed out if its segment is full. -/
theorem Sound.size_inserted (h : c.Sound) (key : κ) (value : ν) (update : Bool) :
    (c.inserted key value update).size + (if c.contains key = false ∧ c.Full key then 1 else 0) =
      c.size + if c.contains key = false then 1 else 0 := by
  have habsent := h.contains_eq_false_iff key
  obtain ⟨lists, h⟩ := h
  obtain ⟨-, hafter⟩ := (h.segment_of key).insert (h.room_of key) key value update
  have hsizes := h.size_setSegment key hafter
  have hput := Recency.size_put (h.keys_nodup key) (h.room_of key) update key value
  simp only [h.full_iff, habsent, h.peek?_eq]
  rw [Lru.inserted, size_countEviction]
  omega

/-- Nothing is left when everything is dropped. -/
theorem size_reset (c : Lru κ ν) : c.reset.size = 0 := by
  have hnoEntry : ∀ entries ∈ c.reset.segments.toList.map Segment.size, entries = 0 := by
    simp [Lru.reset, Segment.cleared, Segment.empty, Segment.size]
  rw [size, ← List.foldl_map, ← List.sum_eq_foldl, List.sum_eq_zero hnoEntry]

/-! ## What has been done -/

/-- A use of a store, and the store at that time. -/
structure Use (κ ν : Type) where
  /-- The store. -/
  store : Lru κ ν
  /-- The use. -/
  command : StoreCommand κ ν

namespace Use

/-- Whether a key is looked up. -/
def looksUp (use : Use κ ν) : Bool :=
  match use.command with
  | .get _ => true
  | _ => false

/-- Whether a key is looked up and a value is found. -/
def finds (use : Use κ ν) : Bool :=
  match use.command with
  | .get key => (use.store.get key).1.isSome
  | _ => false

/-- Whether a value is put under a key that is not there. -/
def bringsIn (use : Use κ ν) : Bool :=
  match use.command with
  | .put key _ | .putIfAbsent key _ => !use.store.contains key
  | _ => false

/-- Whether a value is put under a key that is not there and whose segment is full. -/
def pushesOut (use : Use κ ν) : Bool :=
  match use.command with
  | .put key _ | .putIfAbsent key _ => !use.store.contains key && decide (use.store.Full key)
  | _ => false

/-- Whether a key is removed and a value is given back. -/
def takesOut (use : Use κ ν) : Bool :=
  match use.command with
  | .remove key => (use.store.remove key).1.isSome
  | _ => false

/-- The uses since everything was dropped last, once there is one more. -/
def noted (past : List (Use κ ν)) (use : Use κ ν) : List (Use κ ν) :=
  match use.command with
  | .reset => []
  | _ => past ++ [use]

end Use

/-- The uses since everything was dropped last, in a run that begins with the store when there are `past`. -/
def since (c : Lru κ ν) (past : List (Use κ ν)) : List (StoreCommand κ ν) → List (Use κ ν)
  | [] => past
  | command :: rest => (c.answer command).2.since (Use.noted past ⟨c, command⟩) rest

/-- What the store counts is what has been done since everything was dropped last. -/
structure Balances (c : Lru κ ν) (past : List (Use κ ν)) : Prop where
  /-- The segments stand for lists. -/
  sound : c.Sound
  /-- Each look-up is counted. -/
  requests : c.hits + c.misses = past.countP Use.looksUp
  /-- What was found is counted. -/
  hits : c.hits = past.countP Use.finds
  /-- What was pushed out is counted. -/
  evictions : c.evictions = past.countP Use.pushesOut
  /-- What came in and did not go out is there. -/
  entries : c.size + c.evictions + past.countP Use.takesOut = past.countP Use.bringsIn

namespace Balances

variable {d : Lru κ ν} {past : List (Use κ ν)}

/-- One more use balances if it counts as what it is. -/
theorem concat (h : c.Balances past) {use : Use κ ν} (hsound : d.Sound)
    (hrequests : d.hits + d.misses = c.hits + c.misses + if use.looksUp then 1 else 0)
    (hits : d.hits = c.hits + if use.finds then 1 else 0)
    (hevictions : d.evictions = c.evictions + if use.pushesOut then 1 else 0)
    (hentries : d.size + (if use.pushesOut then 1 else 0) + (if use.takesOut then 1 else 0) =
      c.size + if use.bringsIn then 1 else 0) :
    d.Balances (past ++ [use]) := by
  have hbefore := h.entries
  constructor
  · exact hsound
  · rw [List.countP_append, List.countP_singleton, hrequests, h.requests]
  · rw [List.countP_append, List.countP_singleton, hits, h.hits]
  · rw [List.countP_append, List.countP_singleton, hevictions, h.evictions]
  · simp only [List.countP_append, List.countP_singleton]
    omega

/-- A look-up counts as one that found something or as one that did not. -/
theorem get (h : c.Balances past) (key : κ) :
    (c.get key).2.Balances (past ++ [⟨c, .get key⟩]) := by
  obtain ⟨hrequests, hits⟩ : (c.get key).2.hits + (c.get key).2.misses = c.hits + c.misses + 1 ∧
      (c.get key).2.hits = c.hits + if (c.get key).1.isSome then 1 else 0 := by
    rw [Lru.get]
    rcases (c.segment key).get key with ⟨_ | value, segment⟩
    · exact ⟨rfl, rfl⟩
    · exact ⟨Nat.add_right_comm c.hits 1 c.misses, rfl⟩
  exact h.concat (h.sound.answer (.get key)) hrequests hits (c.evictions_get key) (h.sound.size_get key)

/-- A value that is put counts if its key is new, and once more if that pushes an entry out. -/
theorem inserted (h : c.Balances past) {key : κ} {value : ν} {update : Bool} {command : StoreCommand κ ν}
    (hput : command = .put key value ∨ command = .putIfAbsent key value)
    (hsound : (c.inserted key value update).Sound) :
    (c.inserted key value update).Balances (past ++ [⟨c, command⟩]) := by
  have hevictions := h.sound.evictions_inserted key value update
  have hentries := h.sound.size_inserted key value update
  have hcounts : (c.inserted key value update).hits = c.hits ∧
      (c.inserted key value update).misses = c.misses := by
    rw [Lru.inserted]
    rcases ((c.segment key).insert key value update).1 with (_ | _) | _ | _ <;> exact ⟨rfl, rfl⟩
  rcases hput with rfl | rfl <;>
    exact h.concat hsound (by rw [hcounts.1, hcounts.2]; rfl) hcounts.1
      (by simpa [Use.pushesOut] using hevictions)
      (by simpa [Use.pushesOut, Use.bringsIn, Use.takesOut] using hentries)

/-- A removed key counts if it was there. -/
theorem remove (h : c.Balances past) (key : κ) :
    (c.remove key).2.Balances (past ++ [⟨c, .remove key⟩]) :=
  h.concat (h.sound.answer (.remove key)) rfl rfl rfl (h.sound.size_remove key)

/-- Once everything is dropped there is nothing to count. -/
theorem reset (h : c.Balances past) : c.reset.Balances [] :=
  ⟨h.sound.answer .reset, rfl, rfl, rfl, by rw [c.size_reset]; rfl⟩

/-- Every use leaves a store in balance. -/
theorem answer (h : c.Balances past) (command : StoreCommand κ ν) :
    (c.answer command).2.Balances (Use.noted past ⟨c, command⟩) := by
  cases command with
  | get key => exact h.get key
  | put key value => exact h.inserted (.inl rfl) (h.sound.answer (.put key value))
  | putIfAbsent key value =>
    have hsound := h.sound.answer (.putIfAbsent key value)
    rw [Lru.answer] at hsound ⊢
    simp only [putIfAbsent_snd] at hsound ⊢
    exact h.inserted (.inr rfl) hsound
  | remove key => exact h.remove key
  | contains key => exact h.concat h.sound rfl rfl rfl rfl
  | reset => exact h.reset
  | size => exact h.concat h.sound rfl rfl rfl rfl
  | keys i => exact h.concat h.sound rfl rfl rfl rfl

/-- Every run of uses leaves a store in balance. -/
theorem answers (h : c.Balances past) (commands : List (StoreCommand κ ν)) :
    (EvidenceFlow.answers Lru.answer commands c).2.Balances (c.since past commands) := by
  induction commands generalizing c past with
  | nil => exact h
  | cons command rest ih => exact ih (h.answer command)

/-- The next use pushes at most one entry out: one for a new key of a full segment. -/
theorem evictions_answer (h : c.Balances past) {command : StoreCommand κ ν} (hkeeps : command ≠ .reset) :
    (c.answer command).2.evictions = c.evictions + if Use.pushesOut ⟨c, command⟩ then 1 else 0 := by
  have hafter := (h.answer command).evictions
  have hnotedEq : Use.noted past ⟨c, command⟩ = past ++ [⟨c, command⟩] := by
    cases command with
    | reset => exact absurd rfl hkeeps
    | _ => rfl
  rwa [hnotedEq, List.countP_append, List.countP_singleton, ← h.evictions] at hafter

end Balances

/-- There are no more uses since everything was dropped last than uses. -/
theorem length_since (c : Lru κ ν) (past : List (Use κ ν)) (commands : List (StoreCommand κ ν)) :
    (c.since past commands).length ≤ past.length + commands.length := by
  induction commands generalizing c past with
  | nil => exact Nat.le_refl _
  | cons command rest ih =>
    have hnotedLe : (Use.noted past ⟨c, command⟩).length ≤ past.length + 1 := by
      cases command <;> simp [Use.noted]
    have hlater := ih (c.answer command).2 (Use.noted past ⟨c, command⟩)
    rw [since, List.length_cons]
    omega

/-- Made with valid settings, a store counts over all its segments what has been done since everything was
dropped last: the look-ups are those that found something and those that did not, and the entries are the keys
that came in new, less those pushed out and those removed. Apart from dropping everything, a use changes what is
counted as pushed out only if it puts a new key into a full segment, and then by one. No count exceeds the number
of uses. -/
theorem stats_balance (place : κ → Nat) {settings : LruSettings} (hvalid : settings.validate = .ok ()) :
    ∃ c : Lru κ ν, make place settings = .ok c ∧ ∀ commands : List (StoreCommand κ ν),
      let store := (answers answer commands c).2
      let past := c.since [] commands
      store.stats.hits + store.stats.misses = past.countP Use.looksUp ∧
      store.stats.hits = past.countP Use.finds ∧
      store.stats.entryCount + store.stats.evictions + past.countP Use.takesOut = past.countP Use.bringsIn ∧
      store.stats.evictions = past.countP Use.pushesOut ∧
      (∀ command, command ≠ .reset → (store.answer command).2.stats.evictions =
        store.stats.evictions + if Use.pushesOut ⟨store, command⟩ then 1 else 0) ∧
      store.stats.hits + store.stats.misses ≤ commands.length ∧
      store.stats.entryCount + store.stats.evictions ≤ commands.length := by
  have hmade : make place settings = .ok (ofSettings place settings : Lru κ ν) := by
    rw [make, hvalid]
    rfl
  have hfresh : (ofSettings place settings : Lru κ ν).Balances [] := by
    refine ⟨Sound.ofSettings place hvalid, rfl, rfl, rfl, ?_⟩
    have hnoneHeld : (ofSettings place settings : Lru κ ν).reset = ofSettings place settings := by
      simp [Lru.reset, ofSettings, Segment.cleared, Segment.empty, Function.comp_def]
    have hsizeEq := (ofSettings place settings : Lru κ ν).size_reset
    rw [hnoneHeld] at hsizeEq
    rw [hsizeEq]
    rfl
  refine ⟨_, hmade, fun commands => ?_⟩
  intro store past
  have hbalance : store.Balances past := hfresh.answers commands
  have hpastLe : past.length ≤ commands.length := by
    simpa using (ofSettings place settings : Lru κ ν).length_since [] commands
  have hrequestsLe : past.countP Use.looksUp ≤ past.length := List.countP_le_length
  have hentriesLe : past.countP Use.bringsIn ≤ past.length := List.countP_le_length
  refine ⟨hbalance.requests, hbalance.hits, hbalance.entries, hbalance.evictions,
    fun _ hkeeps => hbalance.evictions_answer hkeeps, ?_, ?_⟩
  · exact hbalance.requests.trans_le (hrequestsLe.trans hpastLe)
  · have hentries := hbalance.entries
    change store.size + store.evictions ≤ commands.length
    omega

/-- Four keys come into two segments with room for two entries and for one, of which the second one pushes an
entry out and another key is removed. -/
def crowding : List (StoreCommand Nat Nat) :=
  [.put 7 70, .get 7, .reset, .put 1 10, .put 3 30, .get 3, .get 1, .putIfAbsent 3 31, .putIfAbsent 2 20, .put 4 40,
    .remove 2, .remove 6]

/-- Two segments count what comes, what is found, what is pushed out and what is taken away. -/
theorem stats_balance_of_crowding :
    ∃ c : Lru Nat Nat, make id { capacity := 3, concurrency := 2 } = .ok c ∧
      (c.since [] crowding).countP Use.finds = 1 ∧ (c.since [] crowding).countP Use.bringsIn = 4 ∧
      (answers answer crowding c).2.stats = { hits := 1, misses := 1, entryCount := 2, evictions := 1 } := by
  obtain ⟨c, hmade, hcounts⟩ := stats_balance (κ := Nat) (ν := Nat) id
    (show LruSettings.validate { capacity := 3, concurrency := 2 } = .ok () from rfl)
  obtain rfl := Except.ok.inj hmade
  obtain ⟨-, hits, hentries, -⟩ := hcounts crowding
  refine ⟨_, hmade, hits.symm.trans ?_, hentries.symm.trans ?_, ?_⟩ <;> decide +kernel

end Lru

end EvidenceFlow
