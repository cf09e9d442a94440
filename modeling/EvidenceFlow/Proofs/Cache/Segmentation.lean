import Mathlib.Algebra.Order.BigOperators.Group.List
import Mathlib.Algebra.Order.Ring.Nat
import EvidenceFlow.Proofs.Cache.StoreRuns

/-!
# Segments are stores of their own

The room of a store is shared out among its segments without rest, as evenly as can be. From then on
each segment goes its own way: it answers, and ends up holding, what a store with a single segment and
that share does if it is given the uses of the segment's keys only. A key is never held in a segment
other than its own, and all segments together never hold more than there is room for.
-/

namespace EvidenceFlow

/-! ## Shares -/

namespace LruSettings

variable {settings : LruSettings}

/-- Settings that leave room for an entry and ask for a segment are valid. -/
theorem validate_of_pos (hcapacity : 0 < settings.capacity) (hconcurrency : 0 < settings.concurrency) :
    settings.validate = .ok () := by
  rw [validate, if_neg (by omega), if_neg (by omega)]

/-- There are as many segments as were asked for, unless there is less room. -/
theorem segmentCount_of_validate (h : settings.validate = .ok ()) :
    settings.segmentCount = min settings.concurrency settings.capacity := by
  obtain ⟨hcapacity, hconcurrency⟩ := pos_of_validate h
  rw [segmentCount]
  omega

/-- Where the first `extra` of `n` shares are larger by one, these are what comes on top. -/
theorem sum_shares (base extra n : Nat) :
    ((List.range n).map fun i => base + if i < extra then 1 else 0).sum = base * n + min extra n := by
  induction n with
  | zero => simp
  | succ n ih =>
    rw [List.range_succ, List.map_append, List.sum_append, ih, List.map_singleton, List.sum_singleton,
      Nat.mul_succ]
    split <;> omega

/-- The shares are all the room. -/
theorem sum_segmentCapacities (settings : LruSettings) :
    settings.segmentCapacities.sum = settings.capacity := by
  have hpos : 0 < settings.segmentCount := Nat.le_max_right _ _
  have hextra := Nat.mod_lt settings.capacity hpos
  have hdivision := Nat.div_add_mod settings.capacity settings.segmentCount
  have hshare : settings.segmentShare = fun i => settings.capacity / settings.segmentCount +
      if i < settings.capacity % settings.segmentCount then 1 else 0 := rfl
  rw [segmentCapacities, hshare, sum_shares, Nat.min_eq_left (by omega), Nat.mul_comm]
  exact hdivision

/-- A later share is not larger, and smaller by one at most. -/
theorem segmentShare_antitone (settings : LruSettings) {i j : Nat} (h : i ≤ j) :
    settings.segmentShare j ≤ settings.segmentShare i ∧
      settings.segmentShare i ≤ settings.segmentShare j + 1 := by
  simp only [segmentShare]
  split <;> split <;> omega

/-- The shares never grow from one segment to the next. -/
theorem pairwise_segmentCapacities (settings : LruSettings) :
    settings.segmentCapacities.Pairwise (· ≥ ·) := by
  rw [segmentCapacities, List.pairwise_map]
  exact List.pairwise_lt_range.imp fun h => (settings.segmentShare_antitone (Nat.le_of_lt h)).1

/-- No two shares differ by more than one. -/
theorem le_succ_of_mem_segmentCapacities {a b : Nat} (ha : a ∈ settings.segmentCapacities)
    (hb : b ∈ settings.segmentCapacities) : a ≤ b + 1 := by
  obtain ⟨i, -, rfl⟩ := List.mem_map.mp ha
  obtain ⟨j, -, rfl⟩ := List.mem_map.mp hb
  rcases Nat.le_total i j with hij | hji
  · exact (settings.segmentShare_antitone hij).2
  · have := (settings.segmentShare_antitone hji).1
    omega

/-- A segment has its share. -/
theorem getElem_segmentCapacities {i : Nat} (h : i < settings.segmentCapacities.length) :
    settings.segmentCapacities[i] = settings.segmentShare i := by
  simp [segmentCapacities]

/-- The room is shared out among as many segments as were asked for, or as find room. -/
structure SharedOut (settings : LruSettings) : Prop where
  /-- There is a segment for each that was asked for, unless there is less room. -/
  count : settings.segmentCount = min settings.concurrency settings.capacity
  /-- Each segment has a share. -/
  length : settings.segmentCapacities.length = settings.segmentCount
  /-- No share is nothing. -/
  pos : ∀ share ∈ settings.segmentCapacities, 1 ≤ share
  /-- No two shares differ by more than one. -/
  near : ∀ a ∈ settings.segmentCapacities, ∀ b ∈ settings.segmentCapacities, a ≤ b + 1
  /-- No share is larger than one before it. -/
  descending : settings.segmentCapacities.Pairwise (· ≥ ·)
  /-- The shares are all the room. -/
  sum : settings.segmentCapacities.sum = settings.capacity

/-- Valid settings share the room out. -/
theorem sharedOut_of_validate (h : settings.validate = .ok ()) : settings.SharedOut where
  count := segmentCount_of_validate h
  length := by rw [segmentCapacities, List.length_map, List.length_range]
  pos share hshare := by
    obtain ⟨i, -, rfl⟩ := List.mem_map.mp hshare
    exact Lru.segmentShare_pos h i
  near _ ha _ hb := le_succ_of_mem_segmentCapacities ha hb
  descending := pairwise_segmentCapacities settings
  sum := sum_segmentCapacities settings

/-- The settings of a store with one segment that has a share of the room. -/
def ofShare (settings : LruSettings) (share : Nat) : LruSettings :=
  { settings with capacity := share, concurrency := 1 }

/-- A share of the room is enough for a store of its own. -/
theorem validate_ofShare (settings : LruSettings) {share : Nat} (h : 0 < share) :
    (settings.ofShare share).validate = .ok () :=
  validate_of_pos h Nat.one_pos

/-- A store that has a share of the room has one segment. -/
theorem segmentCount_ofShare (settings : LruSettings) (share : Nat) :
    (settings.ofShare share).segmentCount = 1 := by
  change max (min 1 share) 1 = 1
  omega

end LruSettings

/-! ## Uses of one segment -/

namespace StoreCommand

variable {κ ν : Type}

/-- Whether a use is of a key of a segment, or drops everything. -/
def concerns (segment : κ → Nat) (i : Nat) (command : StoreCommand κ ν) : Bool :=
  match command with
  | .reset => true
  | command => command.key?.any fun key => segment key = i

/-- A use of a key concerns the segment of the key. -/
theorem concerns_of_key? {segment : κ → Nat} {i : Nat} {command : StoreCommand κ ν} {key : κ}
    (hkey : command.key? = some key) (h : segment key = i) : command.concerns segment i := by
  cases command <;> simp_all [concerns, key?]

/-- A use of a key concerns no other segment. -/
theorem eq_of_concerns {segment : κ → Nat} {i : Nat} {command : StoreCommand κ ν} {key : κ}
    (hkey : command.key? = some key) (h : command.concerns segment i) : segment key = i := by
  cases command <;> simp_all [concerns, key?]

/-- The answers to the uses that concern a segment. -/
def answersTo (segment : κ → Nat) (i : Nat) (commands : List (StoreCommand κ ν))
    (given : List (StoreAnswer κ ν)) : List (StoreAnswer κ ν) :=
  ((commands.zip given).filter fun pair => pair.1.concerns segment i).map (·.2)

end StoreCommand

namespace Lru

variable {κ ν : Type}

/-- The entries of a segment from the most to the least recently used; none if there is no such
segment. -/
def entriesOf (c : Lru κ ν) (i : Nat) : List (κ × ν) :=
  (c.segments[i]?.map Segment.entries).getD []

namespace Holds

variable {c : Lru κ ν} {lists : Nat → Recency κ ν}

/-- The entries of a segment are those of its list. -/
theorem entriesOf_eq (h : c.Holds lists) {i : Nat} (hi : i < c.segments.size) :
    c.entriesOf i = (lists i).entries := by
  obtain ⟨slots, hslots⟩ := h.segment i hi
  rw [entriesOf, Array.getElem?_eq_getElem hi, Option.map_some, Option.getD_some, hslots.entries_eq]

/-- A key that is found in a segment belongs there. -/
theorem eq_of_mem_segmentKeys (h : c.Holds lists) {i : Nat} {key : κ} (hkey : key ∈ c.segmentKeys i) :
    i = c.place key % c.segments.size := by
  rw [h.segmentKeys_eq] at hkey
  split at hkey
  · next hi => exact (h.placed i hi key hkey).symm
  · cases hkey

/-- Segments have the room of their lists. -/
theorem map_capacity (h : c.Holds lists) :
    c.segments.toList.map Segment.capacity =
      (List.range c.segments.size).map fun i => (lists i).capacity := by
  refine List.ext_getElem (by simp) fun i hi _ => ?_
  obtain ⟨slots, hslots⟩ := h.segment i (by simpa using hi)
  simpa using hslots.capacity

/-- All segments together hold no more than they have room for. -/
theorem size_le (h : c.Holds lists) :
    c.size ≤ ((List.range c.segments.size).map fun i => (lists i).capacity).sum := by
  have hsum : c.size = (c.segments.toList.map Segment.size).sum := by
    rw [Lru.size, List.sum_eq_foldl, List.foldl_map]
  rw [hsum, ← h.map_capacity]
  refine List.sum_le_sum fun segment hsegment => ?_
  obtain ⟨i, hi, rfl⟩ := List.mem_iff_getElem.mp hsegment
  obtain ⟨slots, hslots⟩ := h.segment i (by simpa using hi)
  rw [Array.getElem_toList, hslots.size_eq, hslots.capacity]
  exact hslots.size_le

/-- If one list has changed, each list is the one it was unless it is that of the key. -/
theorem of_update {d : Lru κ ν} {i : Nat} {r : Recency κ ν}
    (hd : d.Holds (Function.update lists i r)) {lists' : Nat → Recency κ ν}
    (hself : lists' i = r) (hother : ∀ j, j ≠ i → lists' j = lists j) : d.Holds lists' := by
  refine hd.congr fun j _ => ?_
  by_cases heq : j = i
  · rw [heq, Function.update_self, hself]
  · rw [Function.update_of_ne heq, hother j heq]

variable [DecidableEq κ]

/-- A use does to the lists that it concerns what it does to the store, and answers as they do. -/
theorem answer (h : c.Holds lists) (command : StoreCommand κ ν) {segment : κ → Nat}
    (hsegment : ∀ key, segment key = c.segmentOf key) :
    (c.answer command).2.Holds (fun i =>
        if command.concerns segment i then ((lists i).answer c.updateExisting command).2 else lists i) ∧
      ∀ i, command.concerns segment i →
        (c.answer command).1 = ((lists i).answer c.updateExisting command).1 := by
  cases hkey : command.key? with
  | some key =>
    obtain ⟨hanswer, hholds⟩ := h.answer_of_key? hkey
    refine ⟨of_update hholds ?_ fun j hj => ?_, fun i hi => ?_⟩
    · rw [if_pos (StoreCommand.concerns_of_key? hkey (hsegment key))]
    · rw [if_neg fun hconcerns => hj ?_]
      rw [← hsegment, StoreCommand.eq_of_concerns hkey hconcerns]
    · rw [hanswer, ← hsegment, StoreCommand.eq_of_concerns hkey hi]
  | none =>
    cases command with
    | reset => exact ⟨h.reset, fun _ _ => rfl⟩
    | size => exact ⟨h, nofun⟩
    | keys i => exact ⟨h, nofun⟩
    | _ => cases hkey

/-- A run does to each list what the uses that concern the segment of the list do to it, and answers
these uses as the list does. -/
theorem answers (commands : List (StoreCommand κ ν)) {c : Lru κ ν} {lists : Nat → Recency κ ν}
    (h : c.Holds lists) {segment : κ → Nat}
    (hsegment : ∀ key, segment key = c.place key % c.segments.size) :
    let run := EvidenceFlow.answers Lru.answer commands c
    let listed i := EvidenceFlow.answers (Recency.answer c.updateExisting)
      (commands.filter (·.concerns segment i)) (lists i)
    run.2.segments.size = c.segments.size ∧ run.2.place = c.place ∧
      run.2.Holds (fun i => (listed i).2) ∧
      ∀ i, StoreCommand.answersTo segment i commands run.1 = (listed i).1 := by
  induction commands generalizing c lists with
  | nil => exact ⟨rfl, rfl, h, fun _ => rfl⟩
  | cons command rest ih =>
    obtain ⟨hsize, hplace, hupdates⟩ := c.answer_shape command
    obtain ⟨hholds, hfirst⟩ := h.answer command hsegment
    obtain ⟨hsize', hplace', hend, hlater⟩ := ih hholds (by rwa [hsize, hplace])
    refine ⟨hsize'.trans hsize, hplace'.trans hplace, hend.congr fun i _ => ?_, fun i => ?_⟩
    · simp only [hupdates, List.filter_cons]
      split <;> rfl
    · have hrest := hlater i
      simp only [StoreCommand.answersTo, EvidenceFlow.answers, List.zip_cons_cons, List.filter_cons,
        hupdates] at hrest ⊢
      split
      · next hconcerns =>
        rw [if_pos hconcerns] at hrest
        rw [List.map_cons, hrest, hfirst i hconcerns]
        rfl
      · next hconcerns =>
        rw [if_neg hconcerns] at hrest
        exact hrest

end Holds

variable [DecidableEq κ]

/-- After a run of uses, a segment of a store has answered and holds what a store with one segment
has answered and holds after the uses that concern the segment. -/
structure Mirrors (c lone : Lru κ ν) (segment : κ → Nat) (i : Nat)
    (commands : List (StoreCommand κ ν)) : Prop where
  /-- Both give the same answers. -/
  answers : StoreCommand.answersTo segment i commands (answers Lru.answer commands c).1 =
    (answers Lru.answer (commands.filter (·.concerns segment i)) lone).1
  /-- Both hold the same entries in the same order. -/
  entries : (EvidenceFlow.answers Lru.answer commands c).2.entriesOf i =
    (EvidenceFlow.answers Lru.answer (commands.filter (·.concerns segment i)) lone).2.entriesOf 0
  /-- Both hold the same value under each key of the segment. -/
  values : ∀ key, segment key = i → (EvidenceFlow.answers Lru.answer commands c).2.peek? key =
    (EvidenceFlow.answers Lru.answer (commands.filter (·.concerns segment i)) lone).2.peek? key

/-- A segment mirrors a store with one segment if both stand for the same list. -/
theorem Holds.mirrors {c lone : Lru κ ν} {lists : Nat → Recency κ ν} (h : c.Holds lists) {i : Nat}
    (hi : i < c.segments.size) (hlone : lone.Alone c.updateExisting (lists i)) {segment : κ → Nat}
    (hsegment : ∀ key, segment key = c.place key % c.segments.size)
    (commands : List (StoreCommand κ ν)) : c.Mirrors lone segment i commands := by
  obtain ⟨hsize, hplace, hend, hanswers⟩ := h.answers commands hsegment
  obtain ⟨halone, hthen⟩ := hlone.answers (commands.filter (·.concerns segment i))
  refine ⟨(hanswers i).trans halone.symm, ?_, fun key hkey => ?_⟩
  · rw [hend.entriesOf_eq (hsize.symm ▸ hi), hthen.holds.entriesOf_eq (hthen.single ▸ Nat.one_pos)]
  · rw [hend.peek?_eq, hthen.holds.peek?_eq]
    have hown : (((EvidenceFlow.answers Lru.answer commands c).2.segmentOf key : Nat)) = i := by
      rw [← hkey, hsegment, ← hplace, ← hsize]
      rfl
    rw [hown]

/-- Valid settings cut the room into segments that each hold and answer what a store of their own
would, so that no key is in two of them and there are never more entries than there is room. -/
theorem segments_independent (place : κ → Nat) {settings : LruSettings}
    (hvalid : settings.validate = .ok ()) :
    settings.SharedOut ∧ ∃ c : Lru κ ν, make place settings = .ok c ∧
      c.segments.toList.map Segment.capacity = settings.segmentCapacities ∧
      ∀ commands : List (StoreCommand κ ν),
        let store := (answers Lru.answer commands c).2
        let segment key := place key % settings.segmentCount
        (∀ i share, settings.segmentCapacities[i]? = some share → ∀ other : κ → Nat,
          ∃ lone : Lru κ ν, make other (settings.ofShare share) = .ok lone ∧ lone.segmentCount = 1 ∧
            c.Mirrors lone segment i commands) ∧
        (∀ i key, key ∈ store.segmentKeys i → i = segment key) ∧
        store.size ≤ settings.capacity := by
  have hholds := Holds.ofSettings (ν := ν) place hvalid
  have hcount : (ofSettings place settings : Lru κ ν).segments.size = settings.segmentCount :=
    segmentCount_ofSettings place settings
  have hsegment : ∀ key, place key % settings.segmentCount =
      place key % (ofSettings place settings : Lru κ ν).segments.size := by
    rw [hcount]
    exact fun _ => rfl
  refine ⟨LruSettings.sharedOut_of_validate hvalid, ofSettings place settings, ?_, ?_,
    fun commands => ⟨fun i share hshare other => ?_, fun i key hkey => ?_, ?_⟩⟩
  · rw [make, hvalid]
    rfl
  · rw [hholds.map_capacity, hcount]
    rfl
  · obtain ⟨hi, hshare⟩ := List.getElem?_eq_some_iff.mp hshare
    rw [LruSettings.segmentCapacities, List.length_map, List.length_range] at hi
    rw [LruSettings.getElem_segmentCapacities] at hshare
    subst hshare
    have hlone := settings.validate_ofShare (segmentShare_pos hvalid i)
    have hone := LruSettings.segmentCount_ofShare settings (settings.segmentShare i)
    refine ⟨ofSettings other _, ?_, (segmentCount_ofSettings other _).trans hone, ?_⟩
    · rw [make, hlone]
      rfl
    · exact hholds.mirrors (hcount ▸ hi) (Alone.ofSettings other hlone hone) hsegment commands
  · obtain ⟨hsize, hplace, hend, -⟩ := hholds.answers commands hsegment
    rw [hend.eq_of_mem_segmentKeys hkey, hsize, hplace, hcount]
    rfl
  · obtain ⟨hsize, -, hend, -⟩ := hholds.answers commands hsegment
    refine hend.size_le.trans_eq ?_
    rw [hsize, hcount, ← LruSettings.sum_segmentCapacities settings]
    simp [LruSettings.segmentCapacities, Recency.empty]

/-- Three entries find room in two segments of a store, so that the third even key pushes out the
first one and leaves the odd key alone. -/
theorem segments_independent_of_two :
    ∃ c : Lru Nat Nat, make id { capacity := 3, concurrency := 2 } = .ok c ∧
      (answers Lru.answer [.put 0 0, .put 1 10, .put 2 20, .put 4 40, .get 1] c).2.entriesOf 0 =
        [(4, 40), (2, 20)] := by
  obtain ⟨-, c, hmake, -, hruns⟩ := segments_independent (κ := Nat) (ν := Nat) id
    (show LruSettings.validate { capacity := 3, concurrency := 2 } = .ok () from rfl)
  obtain ⟨hmirrors, -, -⟩ := hruns [.put 0 0, .put 1 10, .put 2 20, .put 4 40, .get 1]
  obtain ⟨lone, hlone, -, hmirror⟩ := hmirrors 0 2 rfl id
  obtain rfl := Except.ok.inj hlone
  refine ⟨c, hmake, hmirror.entries.trans ?_⟩
  decide

end Lru

end EvidenceFlow
