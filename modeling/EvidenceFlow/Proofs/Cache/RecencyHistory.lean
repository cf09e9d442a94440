import Mathlib.Data.Finset.Card
import Mathlib.Data.Finset.Dedup
import EvidenceFlow.Proofs.Cache.Recency

/-!
# What recency lists remember

The keys of a recency list are those that were touched last, as many as there is room for, the latest
touch in front. A key is thus there exactly if it was touched, and fewer other keys than there is room
for have been touched since.
-/

namespace EvidenceFlow.Recency

variable {κ ν : Type} [DecidableEq κ]

/-! ## Latest touches -/

/-- The keys of a history, each in the place of its latest touch; latest touches come first. -/
def latest : List κ → List κ
  | [] => []
  | key :: past => key :: (latest past).filter (· ≠ key)

/-- Each key that was touched has a latest touch. -/
@[simp] theorem mem_latest {past : List κ} {key : κ} : key ∈ latest past ↔ key ∈ past := by
  induction past with
  | nil => rfl
  | cons first past ih =>
    by_cases h : key = first <;> simp [latest, ih, h]

/-- No key has two latest touches. -/
theorem nodup_latest (past : List κ) : (latest past).Nodup := by
  induction past with
  | nil => exact List.nodup_nil
  | cons first past ih =>
    rw [latest, List.nodup_cons]
    exact ⟨by simp, ih.filter _⟩

/-- What comes before a key does so without those elements that are left out and are not the key. -/
theorem takeWhile_filter_ne {first key : κ} (h : first ≠ key) (keys : List κ) :
    (keys.filter (· ≠ first)).takeWhile (· ≠ key) = (keys.takeWhile (· ≠ key)).filter (· ≠ first) := by
  induction keys with
  | nil => rfl
  | cons head rest ih =>
    by_cases hfirst : head = first
    · subst hfirst
      rw [List.filter_cons_of_neg (by simp), List.takeWhile_cons_of_pos (by simpa using h),
        List.filter_cons_of_neg (by simp), ih]
    · rw [List.filter_cons_of_pos (by simpa using hfirst)]
      by_cases hkey : head = key
      · rw [List.takeWhile_cons_of_neg (by simpa using hkey),
          List.takeWhile_cons_of_neg (by simpa using hkey), List.filter_nil]
      · rw [List.takeWhile_cons_of_pos (by simpa using hkey),
          List.takeWhile_cons_of_pos (by simpa using hkey),
          List.filter_cons_of_pos (by simpa using hfirst), ih]

/-- The keys with a later touch than a key's latest one are those that were touched since. -/
theorem mem_takeWhile_latest {past : List κ} {key other : κ} :
    other ∈ (latest past).takeWhile (· ≠ key) ↔ other ∈ past.takeWhile (· ≠ key) := by
  induction past with
  | nil => rfl
  | cons first past ih =>
    rw [latest]
    by_cases h : first = key
    · rw [List.takeWhile_cons_of_neg (by simpa using h), List.takeWhile_cons_of_neg (by simpa using h)]
    · rw [List.takeWhile_cons_of_pos (by simpa using h), List.takeWhile_cons_of_pos (by simpa using h),
        takeWhile_filter_ne h, List.mem_cons, List.mem_cons, List.mem_filter, ih]
      by_cases hother : other = first <;> simp [hother]

/-- As many keys have a later touch than a key's latest one as were touched since. -/
theorem length_takeWhile_latest (past : List κ) (key : κ) :
    ((latest past).takeWhile (· ≠ key)).length = (past.takeWhile (· ≠ key)).toFinset.card := by
  have hnodup := (nodup_latest past).sublist (List.takeWhile_sublist (· ≠ key))
  rw [← List.toFinset_card_of_nodup hnodup]
  congr 1
  ext other
  rw [List.mem_toFinset, List.mem_toFinset, mem_takeWhile_latest]

/-- An element is among the first `n` if it is there with fewer than `n` before it. -/
theorem mem_take_iff_takeWhile {keys : List κ} {key : κ} {n : Nat} :
    key ∈ keys.take n ↔ key ∈ keys ∧ (keys.takeWhile (· ≠ key)).length < n := by
  induction keys generalizing n with
  | nil => simp
  | cons head rest ih =>
    cases n with
    | zero => simp
    | succ n =>
      by_cases h : head = key
      · simp [h]
      · simp [ih, h, Ne.symm h]

/-! ## Recent keys -/

/-- The keys touched last, `room` of them or all. -/
def recent (room : Nat) (past : List κ) : List κ := (latest past).take room

/-- A key is recent exactly if it was touched, and fewer than `room` other keys were touched since. -/
theorem mem_recent_iff {room : Nat} {past : List κ} {key : κ} :
    key ∈ recent room past ↔ key ∈ past ∧ (past.takeWhile (· ≠ key)).toFinset.card < room := by
  rw [recent, mem_take_iff_takeWhile, mem_latest, length_takeWhile_latest]

/-- Leaving out one of the first `n` elements leaves one fewer of them. -/
theorem take_filter_ne_of_mem {keys : List κ} (hnodup : keys.Nodup) {key : κ} {n : Nat}
    (h : key ∈ keys.take n) :
    (keys.filter (· ≠ key)).take (n - 1) = (keys.take n).filter (· ≠ key) := by
  induction keys generalizing n with
  | nil => simp
  | cons head rest ih =>
    obtain ⟨hhead, hrest⟩ := List.nodup_cons.mp hnodup
    obtain _ | n := n
    · cases h
    rw [List.take_succ_cons, List.mem_cons] at h
    rw [List.take_succ_cons, Nat.add_sub_cancel]
    by_cases heq : head = key
    · subst heq
      have hout {part : List κ} (hpart : part ⊆ rest) : part.filter (· ≠ head) = part :=
        List.filter_eq_self.mpr fun other hother => by
          simpa using ne_of_mem_of_not_mem (hpart hother) hhead
      rw [List.filter_cons_of_neg (by simp), List.filter_cons_of_neg (by simp),
        hout (List.Subset.refl _), hout (List.take_subset _ _)]
    · have hmem := h.resolve_left (Ne.symm heq)
      obtain _ | n := n
      · cases hmem
      rw [List.filter_cons_of_pos (by simpa using heq), List.filter_cons_of_pos (by simpa using heq),
        List.take_succ_cons, ← ih hrest hmem, Nat.add_sub_cancel]

/-- Leaving out an element that is not among the first `n` does not touch those before the last of
them. -/
theorem take_filter_ne_of_not_mem {keys : List κ} {key : κ} {n : Nat} (h : key ∉ keys.take n) :
    (keys.filter (· ≠ key)).take (n - 1) = keys.take (n - 1) := by
  induction keys generalizing n with
  | nil => simp
  | cons head rest ih =>
    obtain _ | _ | n := n
    · rfl
    · rfl
    · rw [List.take_succ_cons, List.mem_cons, not_or] at h
      rw [List.filter_cons_of_pos (by simpa using Ne.symm h.1), Nat.add_sub_cancel, List.take_succ_cons,
        List.take_succ_cons]
      exact congrArg (List.cons head) (ih h.2)

/-- A recent key that is touched again comes to the front. -/
theorem recent_cons_of_mem {room : Nat} {past : List κ} {key : κ} (h : key ∈ recent room past) :
    recent room (key :: past) = key :: (recent room past).filter (· ≠ key) := by
  obtain _ | room := room
  · simp [recent] at h
  rw [recent, latest, List.take_succ_cons]
  exact congrArg (List.cons key) (take_filter_ne_of_mem (nodup_latest past) h)

/-- A key that is not recent and is touched comes to the front, and takes the place of the last one if
there is no room. -/
theorem recent_cons_of_not_mem {room : Nat} (hpos : 0 < room) {past : List κ} {key : κ}
    (h : key ∉ recent room past) :
    recent room (key :: past) = key ::
      if room ≤ (recent room past).length then (recent room past).dropLast else recent room past := by
  obtain _ | room := room
  · cases hpos
  have hrest := take_filter_ne_of_not_mem h
  rw [Nat.add_sub_cancel] at hrest
  rw [recent, latest, List.take_succ_cons, hrest]
  congr 1
  split
  · next hfull =>
    have hlength : ((latest past).take (room + 1)).length = room + 1 :=
      Nat.le_antisymm (List.length_take_le _ _) hfull
    rw [recent, List.dropLast_eq_take, hlength, List.take_take, Nat.add_sub_cancel,
      Nat.min_eq_left (Nat.le_succ room)]
  · next hroom =>
    rw [recent, List.length_take] at hroom
    rw [recent, List.take_of_length_le (by omega), List.take_of_length_le (by omega)]

/-! ## Recency lists -/

/-- The keys of the list are those touched last in a history. -/
def Recalls (r : Recency κ ν) (past : List κ) : Prop := r.keys = recent r.capacity past

namespace Recalls

variable {r : Recency κ ν} {past : List κ} {key : κ}

/-- The list without entries recalls that nothing was touched. -/
theorem empty (capacity : Nat) : (Recency.empty capacity : Recency κ ν).Recalls [] := by
  simp [Recalls, Recency.empty, Recency.keys, recent, latest]

/-- Something is held under the keys that were touched and have not been followed by as many others
as there is room for. -/
theorem isSome_peek?_iff (h : r.Recalls past) (key : κ) :
    (r.peek? key).isSome ↔ key ∈ past ∧ (past.takeWhile (· ≠ key)).toFinset.card < r.capacity := by
  rw [← mem_keys_iff, h, mem_recent_iff]

/-- A key that is there and comes to the front has been touched, whatever is held under it then. -/
theorem front (h : r.Recalls past) (hkey : (r.peek? key).isSome) (value : ν) :
    ({ r with entries := (key, value) :: r.others key } : Recency κ ν).Recalls (key :: past) := by
  have hkeys : ((key, value) :: r.others key).map (·.1) = key :: r.keys.filter (· ≠ key) := by
    rw [List.map_cons, others, keys, List.filter_map]
    rfl
  have hmem : key ∈ recent r.capacity past := h ▸ (r.mem_keys_iff key).mpr hkey
  rw [Recalls, keys, hkeys, h, recent_cons_of_mem hmem]

/-- A look-up touches the key that it finds. -/
theorem get (h : r.Recalls past) (hkey : (r.peek? key).isSome) :
    (r.get key).2.Recalls (key :: past) := by
  obtain ⟨value, hvalue⟩ := Option.isSome_iff_exists.mp hkey
  rw [Recency.get, hvalue]
  exact h.front hkey value

/-- Putting a value in the place of another one touches the key. -/
theorem replace (h : r.Recalls past) (hkey : (r.peek? key).isSome) (value : ν) :
    (r.put true key value).Recalls (key :: past) := by
  obtain ⟨held, hheld⟩ := Option.isSome_iff_exists.mp hkey
  rw [Recency.put, hheld]
  exact h.front hkey value

/-- Putting a value under a new key touches the key. -/
theorem insert (h : r.Recalls past) (hpos : 0 < r.capacity) (hkey : r.peek? key = none)
    (update : Bool) (value : ν) : (r.put update key value).Recalls (key :: past) := by
  have hmem : key ∉ recent r.capacity past := by
    rw [← h, mem_keys_iff, hkey]
    simp
  have hsize : r.size = r.keys.length := (List.length_map _).symm
  have hput : r.put update key value = r.push key value := by rw [Recency.put, hkey]
  have hkeys : (r.push key value).keys =
      key :: if r.capacity ≤ r.keys.length then r.keys.dropLast else r.keys := by
    rw [keys, Recency.push, List.map_cons, hsize, keys, ← List.map_dropLast]
    split <;> rfl
  rw [hput, Recalls, hkeys, h, ← recent_cons_of_not_mem hpos hmem]
  rfl

end Recalls

end EvidenceFlow.Recency
