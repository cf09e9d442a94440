import EvidenceFlow.Proofs.Cache.StoreRuns

/-!
# What stores hold

Whatever has been done with a store, looking a key up changes nothing that is held, and putting a value
under a key changes what is held under another key only by pushing it out, which is counted.
-/

namespace EvidenceFlow.Lru

variable {κ ν : Type}

/-- The segments stand for lists. -/
def Sound (c : Lru κ ν) : Prop := ∃ lists, c.Holds lists

/-- A fresh store is sound. -/
theorem Sound.ofSettings (place : κ → Nat) {settings : LruSettings}
    (h : settings.validate = .ok ()) : (Lru.ofSettings place settings : Lru κ ν).Sound :=
  ⟨_, Holds.ofSettings place h⟩

variable [DecidableEq κ]

/-- Nothing is held in a fresh store. -/
theorem peek?_ofSettings (place : κ → Nat) {settings : LruSettings}
    (h : settings.validate = .ok ()) (key : κ) :
    (Lru.ofSettings place settings : Lru κ ν).peek? key = none :=
  (Holds.ofSettings place h).peek?_eq key

/-- A store stays sound with every use. -/
theorem Sound.answer {c : Lru κ ν} (h : c.Sound) (command : StoreCommand κ ν) :
    (c.answer command).2.Sound := by
  obtain ⟨lists, h⟩ := h
  cases command with
  | get key => exact ⟨_, (h.get key).2⟩
  | put key value => exact ⟨_, h.inserted key value c.updateExisting⟩
  | putIfAbsent key value =>
    have hholds := h.inserted key value false
    rw [← putIfAbsent_snd] at hholds
    exact ⟨_, hholds⟩
  | remove key => exact ⟨_, (h.remove key).2⟩
  | reset => exact ⟨_, h.reset⟩
  | contains key => exact ⟨lists, h⟩
  | size => exact ⟨lists, h⟩
  | keys i => exact ⟨lists, h⟩

/-- If one list has changed, other lists hold what they held. -/
theorem Holds.peek?_of_update {c d : Lru κ ν} {lists : Nat → Recency κ ν} (h : c.Holds lists)
    {key : κ} {r : Recency κ ν} (hd : d.Holds (Function.update lists (c.segmentOf key) r))
    (hsize : d.segments.size = c.segments.size) (hplace : d.place = c.place) (other : κ) :
    d.peek? other =
      if c.segmentOf other = c.segmentOf key then r.peek? other else c.peek? other := by
  have hsegment : (d.segmentOf other : Nat) = c.segmentOf other := by
    simp only [segmentOf, hsize, hplace]
  rw [hd.peek?_eq, h.peek?_eq, hsegment]
  split
  · next hsame => rw [hsame, Function.update_self]
  · next hother => rw [Function.update_of_ne fun heq => hother (Fin.ext heq)]

/-! ## Looking up -/

/-- A look-up finds what is held. -/
theorem Sound.get_fst {c : Lru κ ν} (h : c.Sound) (key : κ) : (c.get key).1 = c.peek? key := by
  obtain ⟨lists, h⟩ := h
  rw [(h.get key).1, h.peek?_eq]

/-- A key is there exactly if it has a value. -/
theorem Sound.contains_eq {c : Lru κ ν} (h : c.Sound) (key : κ) : c.contains key = (c.peek? key).isSome := by
  obtain ⟨lists, h⟩ := h
  rw [h.contains_eq, Recency.contains, h.peek?_eq]

/-- A key is not resident if nothing is found under it. -/
theorem Sound.contains_eq_false_iff {c : Lru κ ν} (h : c.Sound) (key : κ) :
    c.contains key = false ↔ c.peek? key = none := by
  rw [h.contains_eq, Option.isSome_eq_false_iff, Option.isNone_iff_eq_none]

/-- A look-up changes nothing that is held. -/
theorem Sound.peek?_get {c : Lru κ ν} (h : c.Sound) (key other : κ) :
    (c.get key).2.peek? other = c.peek? other := by
  obtain ⟨lists, h⟩ := h
  obtain ⟨hsize, hplace, -⟩ := c.answer_shape (.get key)
  rw [h.peek?_of_update (h.get key).2 hsize hplace]
  split
  · next hsame => rw [Recency.peek?_get, h.peek?_eq, hsame]
  · rfl

/-- A look-up pushes nothing out. -/
@[simp] theorem evictions_get (c : Lru κ ν) (key : κ) : (c.get key).2.evictions = c.evictions := by
  rw [Lru.get]
  rcases (c.segment key).get key with ⟨_ | value, segment⟩ <;> rfl

/-! ## Putting values -/

/-- An insertion leaves the number of segments and the placement alone. -/
theorem inserted_shape (c : Lru κ ν) (key : κ) (value : ν) (update : Bool) :
    (c.inserted key value update).segments.size = c.segments.size ∧
      (c.inserted key value update).place = c.place := by
  simp [inserted, setSegment]

/-- An insertion pushes out at most one entry. -/
theorem evictions_le_inserted (c : Lru κ ν) (key : κ) (value : ν) (update : Bool) :
    c.evictions ≤ (c.inserted key value update).evictions := by
  rw [inserted]
  rcases ((c.segment key).insert key value update).1 with (_ | _) | _ | _ <;>
    simp [countEviction, setSegment]

/-- What an insertion pushes out is counted. -/
theorem Holds.evictions_inserted {c : Lru κ ν} {lists : Nat → Recency κ ν} (h : c.Holds lists)
    {key : κ} (hnew : (lists (c.segmentOf key)).peek? key = none)
    (hfull : (lists (c.segmentOf key)).capacity ≤ (lists (c.segmentOf key)).size) (value : ν)
    (update : Bool) : c.evictions < (c.inserted key value update).evictions := by
  obtain ⟨hdone, -⟩ := (h.segment_of key).insert (h.room_of key) key value update
  simp only [hnew, hfull, decide_true] at hdone
  rw [Lru.inserted, hdone]
  exact Nat.lt_succ_self _

/-- What is put under a key is held under it, unless the key keeps the value it has. -/
theorem Sound.peek?_inserted_self {c : Lru κ ν} (h : c.Sound) (key : κ) (value : ν)
    (update : Bool) :
    (c.inserted key value update).peek? key =
      some (if update then value else (c.peek? key).getD value) := by
  obtain ⟨lists, h⟩ := h
  obtain ⟨hsize, hplace⟩ := c.inserted_shape key value update
  rw [h.peek?_of_update (h.inserted key value update) hsize hplace, if_pos rfl,
    Recency.peek?_put_self, h.peek?_eq]

/-- What is held under other keys stays held, or is pushed out and counted. -/
theorem Sound.peek?_inserted_of_ne {c : Lru κ ν} (h : c.Sound) {key other : κ} (hne : other ≠ key)
    (value : ν) (update : Bool) :
    (c.inserted key value update).peek? other = c.peek? other ∨
      (c.evictions < (c.inserted key value update).evictions ∧
        (c.inserted key value update).peek? other = none) := by
  obtain ⟨lists, h⟩ := h
  obtain ⟨hsize, hplace⟩ := c.inserted_shape key value update
  rw [h.peek?_of_update (h.inserted key value update) hsize hplace]
  by_cases hsame : c.segmentOf other = c.segmentOf key
  · rw [if_pos hsame, h.peek?_eq other, hsame]
    rcases (lists (c.segmentOf key)).peek?_put_of_ne update hne value with hkept | ⟨hnew, hfull, hgone⟩
    · exact Or.inl hkept
    · exact Or.inr ⟨h.evictions_inserted hnew hfull value update, hgone⟩
  · exact Or.inl (if_neg hsame)

/-- Putting a value under a new key gives back what is then held under it. -/
theorem Sound.putIfAbsent_fst {c : Lru κ ν} (h : c.Sound) (key : κ) (value : ν) :
    (c.putIfAbsent key value).1 = (c.peek? key).getD value := by
  obtain ⟨lists, h⟩ := h
  rw [h.putIfAbsent_fst, Recency.putIfAbsent_fst, h.peek?_eq]

end EvidenceFlow.Lru
