import EvidenceFlow.Proofs.Cache.LruRecency

/-!
# Runs of stores with one segment

A store with one segment answers every run of uses as a recency list does. Each use keeps the store
and the list together, whatever slots the removals and evictions before it have left vacant.
-/

namespace EvidenceFlow

/-- Valid settings leave room for an entry and ask for a segment. -/
theorem LruSettings.pos_of_validate {settings : LruSettings} (h : settings.validate = .ok ()) :
    0 < settings.capacity ∧ 0 < settings.concurrency := by
  rw [LruSettings.validate] at h
  split at h
  · cases h
  · split at h
    · cases h
    · omega

namespace Lru

variable {κ ν : Type}

/-! ## Fresh stores -/

/-- Valid settings leave room for an entry in every segment. -/
theorem segmentShare_pos {settings : LruSettings} (h : settings.validate = .ok ()) (i : Nat) :
    0 < settings.segmentShare i := by
  have hcapacity := (LruSettings.pos_of_validate h).1
  have hle : settings.segmentCount ≤ settings.capacity := by
    rw [LruSettings.segmentCount]
    omega
  have hpos : 0 < settings.segmentCount := Nat.le_max_right _ _
  rw [LruSettings.segmentShare]
  exact Nat.add_pos_left (Nat.div_pos hle hpos) _

/-- A fresh store has as many segments as its settings say. -/
@[simp] theorem segmentCount_ofSettings (place : κ → Nat) (settings : LruSettings) :
    (ofSettings place settings : Lru κ ν).segmentCount = settings.segmentCount := by
  simp [segmentCount, ofSettings, LruSettings.segmentCapacities]

/-- A fresh store stands for lists without entries. -/
theorem Holds.ofSettings (place : κ → Nat) {settings : LruSettings}
    (h : settings.validate = .ok ()) :
    (Lru.ofSettings place settings : Lru κ ν).Holds fun i => .empty (settings.segmentShare i) := by
  refine ⟨?_, fun i _ => segmentShare_pos h i, ?_⟩
  · intro i hi
    simp only [Lru.ofSettings, LruSettings.segmentCapacities, List.map_map, List.getElem_toArray,
      List.getElem_map, List.getElem_range]
    exact Segment.Holds.empty _
  · intro i _ key hkey
    simp [Recency.empty, Recency.keys] at hkey

/-- Lists of segments that are not there do not matter. -/
theorem Holds.congr {c : Lru κ ν} {lists others : Nat → Recency κ ν} (h : c.Holds lists)
    (hsame : ∀ i, i < c.segments.size → others i = lists i) : c.Holds others := by
  refine ⟨?_, ?_, ?_⟩
  · intro i hi
    rw [hsame i hi]
    exact h.segment i hi
  · intro i hi
    rw [hsame i hi]
    exact h.room i hi
  · intro i hi
    rw [hsame i hi]
    exact h.placed i hi

/-! ## One segment -/

/-- A store with one segment that stands for one list. -/
structure Alone (c : Lru κ ν) (update : Bool) (r : Recency κ ν) : Prop where
  /-- The segment stands for the list. -/
  holds : c.Holds fun _ => r
  /-- There is one segment. -/
  single : c.segments.size = 1
  /-- Whether a value that is there is replaced. -/
  updates : c.updateExisting = update

namespace Alone

variable {c : Lru κ ν} {update : Bool} {r : Recency κ ν}

/-- A fresh store with one segment stands for the list without entries. -/
theorem ofSettings (place : κ → Nat) {settings : LruSettings} (h : settings.validate = .ok ())
    (hone : settings.segmentCount = 1) :
    (Lru.ofSettings place settings : Lru κ ν).Alone settings.updateExisting
      (.empty settings.capacity) := by
  have hsingle : (Lru.ofSettings place settings : Lru κ ν).segments.size = 1 :=
    (segmentCount_ofSettings place settings).trans hone
  refine ⟨(Holds.ofSettings place h).congr fun i hi => ?_, hsingle, rfl⟩
  obtain rfl : i = 0 := by omega
  simp [LruSettings.segmentShare, hone, Nat.mod_one]

/-- What a use makes of the list of the only segment is all that is left of the lists. -/
theorem of_update (h : c.Alone update r) {d : Lru κ ν} {q : Recency κ ν}
    {i : Fin c.segments.size} (hholds : d.Holds (Function.update (fun _ => r) i q))
    (hsize : d.segments.size = c.segments.size) (hupdates : d.updateExisting = c.updateExisting) :
    d.Alone update q := by
  refine ⟨hholds.congr fun j hj => ?_, hsize.trans h.single, hupdates.trans h.updates⟩
  obtain rfl : j = i := by
    have hi := i.isLt
    have hsingle := h.single
    omega
  rw [Function.update_self]

/-- The entries of the only segment are all entries. -/
theorem size_eq (h : c.Alone update r) : c.size = r.size := by
  have hsingle := h.single
  obtain ⟨slots, hslots⟩ := h.holds.segment 0 (by omega)
  obtain ⟨segment, hsegments⟩ : ∃ segment, c.segments = #[segment] := Array.size_eq_one_iff.mp hsingle
  rw [Lru.size]
  simp only [hsegments, List.getElem_toArray, List.getElem_cons_zero] at hslots ⊢
  simpa using hslots.size_eq

/-- The keys of the only segment are those of the list. -/
theorem segmentKeys_eq (h : c.Alone update r) (i : Nat) :
    c.segmentKeys i = if i = 0 then r.keys else [] := by
  rw [h.holds.segmentKeys_eq, h.single]
  simp only [Nat.lt_one_iff]

/-- No key stands in two places of the list. -/
theorem keys_nodup [DecidableEq κ] (h : c.Alone update r) : r.keys.Nodup := by
  have hsingle := h.single
  obtain ⟨slots, hslots⟩ := h.holds.segment 0 (by omega)
  exact hslots.keys_nodup

end Alone

/-! ## Runs -/

variable [DecidableEq κ]

/-- A use of a key is one of the list of the key, which answers as the store does. -/
theorem Holds.answer_of_key? {c : Lru κ ν} {lists : Nat → Recency κ ν} (h : c.Holds lists)
    {command : StoreCommand κ ν} {key : κ} (hkey : command.key? = some key) :
    (c.answer command).1 = ((lists (c.segmentOf key)).answer c.updateExisting command).1 ∧
      (c.answer command).2.Holds (Function.update lists (c.segmentOf key)
        ((lists (c.segmentOf key)).answer c.updateExisting command).2) := by
  cases command with
  | get key' =>
    obtain rfl : key' = key := Option.some.inj hkey
    obtain ⟨hfound, hholds⟩ := h.get key'
    refine ⟨?_, hholds⟩
    simp only [Lru.answer, Recency.answer, hfound, Recency.get_fst]
  | put key' value =>
    obtain rfl : key' = key := Option.some.inj hkey
    have hholds := h.inserted key' value c.updateExisting
    rw [← put_eq_inserted] at hholds
    exact ⟨rfl, hholds⟩
  | putIfAbsent key' value =>
    obtain rfl : key' = key := Option.some.inj hkey
    have hholds := h.inserted key' value false
    rw [Recency.put_false, ← putIfAbsent_snd] at hholds
    refine ⟨?_, hholds⟩
    simp only [Lru.answer, Recency.answer, h.putIfAbsent_fst key' value]
  | remove key' =>
    obtain rfl : key' = key := Option.some.inj hkey
    obtain ⟨hfound, hholds⟩ := h.remove key'
    refine ⟨?_, hholds⟩
    simp only [Lru.answer, Recency.answer, hfound, Recency.remove]
  | contains key' =>
    obtain rfl : key' = key := Option.some.inj hkey
    refine ⟨congrArg StoreAnswer.truth (h.contains_eq key'), ?_⟩
    exact h.congr fun i _ => congrFun (Function.update_eq_self _ _) i
  | reset => cases hkey
  | size => cases hkey
  | keys i => cases hkey

/-- A store with one segment answers a use as its list does, and goes on standing for it. -/
theorem Alone.answer {c : Lru κ ν} {update : Bool} {r : Recency κ ν} (h : c.Alone update r)
    (command : StoreCommand κ ν) :
    (c.answer command).1 = (r.answer update command).1 ∧
      (c.answer command).2.Alone update (r.answer update command).2 := by
  obtain ⟨hsize, -, hupdates⟩ := c.answer_shape command
  cases hkey : command.key? with
  | some key =>
    obtain ⟨hanswer, hholds⟩ := h.holds.answer_of_key? hkey
    rw [h.updates] at hanswer hholds
    exact ⟨hanswer, h.of_update hholds hsize hupdates⟩
  | none =>
    cases command with
    | reset => exact ⟨rfl, h.holds.reset, hsize.trans h.single, hupdates.trans h.updates⟩
    | size => exact ⟨congrArg StoreAnswer.count h.size_eq, h⟩
    | keys i => exact ⟨congrArg StoreAnswer.keys (h.segmentKeys_eq i), h⟩
    | _ => cases hkey

/-- A look-up finds what the list holds. -/
theorem Alone.get {c : Lru κ ν} {update : Bool} {r : Recency κ ν} (h : c.Alone update r) (key : κ) :
    (c.get key).1 = r.peek? key ∧ (c.get key).2.Alone update (r.get key).2 := by
  obtain ⟨hanswer, halone⟩ := h.answer (.get key)
  exact ⟨(StoreAnswer.found.inj hanswer).trans (r.get_fst key), halone⟩

/-- A value that is put is put into the list. -/
theorem Alone.put {c : Lru κ ν} {update : Bool} {r : Recency κ ν} (h : c.Alone update r) (key : κ)
    (value : ν) : (c.put key value).Alone update (r.put update key value) :=
  (h.answer (.put key value)).2

/-- A store with one segment answers every run of uses as its list does. -/
theorem Alone.answers {update : Bool} (commands : List (StoreCommand κ ν)) {c : Lru κ ν}
    {r : Recency κ ν} (h : c.Alone update r) :
    (answers Lru.answer commands c).1 = (answers (Recency.answer update) commands r).1 ∧
      (answers Lru.answer commands c).2.Alone update
        (answers (Recency.answer update) commands r).2 := by
  induction commands generalizing c r with
  | nil => exact ⟨rfl, h⟩
  | cons command rest ih =>
    obtain ⟨hfirst, hthen⟩ := h.answer command
    obtain ⟨hlater, hend⟩ := ih hthen
    exact ⟨congrArg₂ List.cons hfirst hlater, hend⟩

/-- Made with valid settings that ask for one segment, a store gives the answers of the recency list
to every run of uses, and its keys are then those of the list, each in one place. -/
theorem answers_eq_recency (place : κ → Nat) {settings : LruSettings}
    (hvalid : settings.validate = .ok ()) (hone : settings.segmentCount = 1) :
    ∃ c : Lru κ ν, make place settings = .ok c ∧ c.segmentCount = 1 ∧
      ∀ commands : List (StoreCommand κ ν),
        let store := EvidenceFlow.answers Lru.answer commands c
        let list := EvidenceFlow.answers (Recency.answer settings.updateExisting) commands
          (.empty settings.capacity)
        store.1 = list.1 ∧ store.2.segmentKeys 0 = list.2.keys ∧ list.2.keys.Nodup := by
  have halone := Alone.ofSettings (ν := ν) place hvalid hone
  refine ⟨ofSettings place settings, ?_, halone.single, fun commands => ?_⟩
  · rw [make, hvalid]
    rfl
  · obtain ⟨hanswers, hend⟩ := halone.answers commands
    exact ⟨hanswers, hend.segmentKeys_eq 0, hend.keys_nodup⟩

/-- Two entries find room, so that a third one pushes out the first, which was not looked up. -/
theorem answers_eq_recency_of_two :
    ∃ c : Lru Nat Nat, make id { capacity := 2 } = .ok c ∧ c.segmentCount = 1 ∧
      (EvidenceFlow.answers Lru.answer [.put 1 10, .put 2 20, .put 3 30, .get 1] c).2.segmentKeys 0 =
        [3, 2] := by
  obtain ⟨c, hmake, hcount, hanswers⟩ :=
    answers_eq_recency (κ := Nat) (ν := Nat) id
      (show LruSettings.validate { capacity := 2 } = .ok () from rfl) rfl
  refine ⟨c, hmake, hcount, ?_⟩
  rw [(hanswers _).2.1]
  decide

end Lru

end EvidenceFlow
