import EvidenceFlow.Cache.Command
import EvidenceFlow.Table

/-!
# What recency lists hold

Looking a key up moves entries and changes none. Putting a value changes what is held under its key,
and may take one other entry away, which happens only when a new key finds no room.
-/

namespace EvidenceFlow.Recency

variable {κ ν : Type} [DecidableEq κ]

/-! ## Room -/

/-- A read leaves the capacity alone. -/
@[simp] theorem capacity_get (r : Recency κ ν) (key : κ) : (r.get key).2.capacity = r.capacity := by
  rw [get]
  split <;> rfl

/-- A write leaves the capacity alone. -/
@[simp] theorem capacity_put (r : Recency κ ν) (update : Bool) (key : κ) (value : ν) :
    (r.put update key value).capacity = r.capacity := by
  rw [put]
  split
  · rfl
  · split <;> rfl

/-- No use changes how much room there is. -/
@[simp] theorem capacity_answer (update : Bool) (command : StoreCommand κ ν) (r : Recency κ ν) :
    (r.answer update command).2.capacity = r.capacity := by
  cases command with
  | get key => exact r.capacity_get key
  | put key value => exact r.capacity_put update key value
  | putIfAbsent key value =>
    simp only [answer, putIfAbsent]
    split <;> rfl
  | remove key => rfl
  | contains key => rfl
  | reset => rfl
  | size => rfl
  | keys i => rfl

/-- No run of uses changes how much room there is. -/
@[simp] theorem capacity_answers (update : Bool) (commands : List (StoreCommand κ ν))
    (r : Recency κ ν) : (answers (answer update) commands r).2.capacity = r.capacity := by
  induction commands generalizing r with
  | nil => rfl
  | cons command rest ih => exact (ih _).trans (r.capacity_answer update command)

/-- Putting a value only if the key is new is putting it without replacing what is held. -/
theorem put_false (r : Recency κ ν) (key : κ) (value : ν) :
    r.put false key value = (r.putIfAbsent key value).2 := by
  rw [put, putIfAbsent]
  cases r.peek? key <;> rfl

/-! ## Values -/

/-- The entries of other keys hold what they held. -/
theorem lookup_others (r : Recency κ ν) (key other : κ) :
    (r.others key).lookup other = if other = key then none else r.peek? other :=
  Table.lookup_erase r.entries key other

/-- A look-up finds what is held and leaves it held. -/
theorem peek?_get (r : Recency κ ν) (key other : κ) : (r.get key).2.peek? other = r.peek? other := by
  rw [get]
  split
  · rfl
  · next value hvalue =>
    by_cases h : other = key
    · rw [h, hvalue, peek?, List.lookup_cons_self]
    · rw [peek?, Table.lookup_cons_of_ne h, lookup_others, if_neg h]

/-- A read answers as a look without a trace. -/
@[simp] theorem get_fst (r : Recency κ ν) (key : κ) : (r.get key).1 = r.peek? key := by
  rw [get]
  split <;> simp_all

/-- A value that is put in the place of another one comes to the front whether or not the key was
looked up before. -/
theorem put_get (r : Recency κ ν) (key : κ) (value : ν) :
    (r.get key).2.put true key value = r.put true key value := by
  cases hpeek : r.peek? key with
  | none => rw [get, hpeek]
  | some held =>
    have hothers : ((key, held) :: r.others key).filter (fun entry => entry.1 ≠ key) = r.others key := by
      rw [List.filter_cons_of_neg (by simp), others, List.filter_filter]
      simp
    have hget : (r.get key).2 = { r with entries := (key, held) :: r.others key } := by
      rw [get, hpeek]
    rw [hget, put, put, hpeek, peek?, List.lookup_cons_self]
    exact congrArg (fun rest => ({ r with entries := (key, value) :: rest } : Recency κ ν)) hothers

/-- What is held under another key than a new one stays held if there is room, and is otherwise held
still or gone. -/
theorem peek?_push_of_ne (r : Recency κ ν) {key other : κ} (h : other ≠ key) (value : ν) :
    (r.push key value).peek? other = r.peek? other ∨
      (r.capacity ≤ r.size ∧ (r.push key value).peek? other = none) := by
  rw [push, peek?, Table.lookup_cons_of_ne h]
  split
  · next hfull =>
    cases hlookup : r.entries.dropLast.lookup other with
    | none => exact Or.inr ⟨hfull, rfl⟩
    | some held =>
      obtain ⟨last, hlast⟩ : ∃ last, r.entries = r.entries.dropLast ++ last := by
        rcases List.eq_nil_or_concat r.entries with hnil | ⟨init, last, hconcat⟩
        · exact ⟨[], by simp [hnil]⟩
        · exact ⟨[last], by simp [hconcat]⟩
      left
      rw [peek?, hlast, List.lookup_append, hlookup, Option.some_or]
  · exact Or.inl rfl

/-- A value that is put is held under its key, unless the key keeps the one it has. -/
theorem peek?_put_self (r : Recency κ ν) (update : Bool) (key : κ) (value : ν) :
    (r.put update key value).peek? key =
      some (if update then value else (r.peek? key).getD value) := by
  rw [put]
  cases hpeek : r.peek? key with
  | none =>
    rw [push, peek?, List.lookup_cons_self]
    simp
  | some held =>
    cases update with
    | true => exact List.lookup_cons_self
    | false => exact hpeek

/-- Putting a value leaves what other keys hold, but for an entry that a new key may push out. -/
theorem peek?_put_of_ne (r : Recency κ ν) (update : Bool) {key other : κ} (h : other ≠ key)
    (value : ν) :
    (r.put update key value).peek? other = r.peek? other ∨
      (r.peek? key = none ∧ r.capacity ≤ r.size ∧ (r.put update key value).peek? other = none) := by
  rw [put]
  cases hpeek : r.peek? key with
  | none => simpa using r.peek?_push_of_ne h value
  | some held =>
    left
    cases update with
    | true => exact (Table.lookup_cons_of_ne h _ _).trans ((r.lookup_others key other).trans (if_neg h))
    | false => rfl

/-- What is held after putting a value if the key is new. -/
theorem putIfAbsent_fst (r : Recency κ ν) (key : κ) (value : ν) :
    (r.putIfAbsent key value).1 = (r.peek? key).getD value := by
  rw [putIfAbsent]
  cases r.peek? key <;> rfl

/-- Removing a key leaves what other keys hold. -/
theorem peek?_remove (r : Recency κ ν) (key other : κ) :
    (r.remove key).2.peek? other = if other = key then none else r.peek? other :=
  r.lookup_others key other

/-! ## Keys -/

/-- A key is there exactly if something is held under it. -/
theorem mem_keys_iff (r : Recency κ ν) (key : κ) : key ∈ r.keys ↔ (r.peek? key).isSome :=
  (Table.lookup_isSome_iff r.entries key).symm

/-- A look-up brings no key in. -/
theorem mem_keys_get {r : Recency κ ν} {key other : κ} (h : other ∈ (r.get key).2.keys) :
    other ∈ r.keys := by
  rw [mem_keys_iff] at h ⊢
  rwa [peek?_get] at h

/-- Putting a value brings no key in but its own. -/
theorem mem_keys_put {r : Recency κ ν} {update : Bool} {key other : κ} {value : ν}
    (h : other ∈ (r.put update key value).keys) : other = key ∨ other ∈ r.keys := by
  refine Decidable.or_iff_not_imp_left.mpr fun hne => ?_
  rw [mem_keys_iff] at h ⊢
  rcases r.peek?_put_of_ne update hne value with hsame | ⟨-, -, hnone⟩
  · rwa [hsame] at h
  · simp [hnone] at h

/-- Removing a key brings no key in. -/
theorem mem_keys_remove {r : Recency κ ν} {key other : κ} (h : other ∈ (r.remove key).2.keys) :
    other ∈ r.keys := by
  rw [mem_keys_iff] at h ⊢
  rw [peek?_remove] at h
  split at h
  · simp at h
  · exact h

end EvidenceFlow.Recency
