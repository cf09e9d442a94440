/-!
# Tables

A table holds a value for each of its keys, in the order in which the keys first came. Giving a new
value to a key leaves the key in its place. Look-up is that of lists of pairs; the main statements
say what `put` and `erase` do to look-up, and what `put` does to the keys.
-/

namespace EvidenceFlow

/-- Values by key, in the order in which the keys came. -/
abbrev Table (κ α : Type) := List (κ × α)

namespace Table

variable {κ α : Type} [DecidableEq κ]

/-- The keys in order. -/
def keys (table : Table κ α) : List κ := table.map (·.1)

/-- Gives a key a value; a key that is there keeps its place. -/
def put (table : Table κ α) (key : κ) (value : α) : Table κ α :=
  match table with
  | [] => [(key, value)]
  | (other, held) :: rest =>
    if other = key then (key, value) :: rest else (other, held) :: put rest key value

/-- Gives a key a value unless it has one. -/
def putNew (table : Table κ α) (key : κ) (value : α) : Table κ α :=
  if (table.lookup key).isSome then table else table.put key value

/-- Takes the value from a key. -/
def erase (table : Table κ α) (key : κ) : Table κ α :=
  table.filter fun entry => entry.1 ≠ key

/-- A look-up passes by the other keys. -/
theorem lookup_cons_of_ne {key query : κ} (h : query ≠ key) (value : α) (rest : Table κ α) :
    List.lookup query ((key, value) :: rest) = rest.lookup query := by
  rw [List.lookup_cons, beq_false_of_ne h]

/-- Changing one key changes no other. -/
theorem lookup_put (table : Table κ α) (key query : κ) (value : α) :
    (table.put key value).lookup query = if query = key then some value else table.lookup query := by
  induction table with
  | nil =>
    by_cases h : query = key
    · simp [put, h]
    · rw [put, lookup_cons_of_ne h, if_neg h]
  | cons entry rest ih =>
    obtain ⟨other, held⟩ := entry
    by_cases same : other = key
    · subst same
      by_cases h : query = other
      · simp [put, h]
      · rw [put, if_pos rfl, lookup_cons_of_ne h, lookup_cons_of_ne h, if_neg h]
    · rw [put, if_neg same]
      by_cases h : query = other
      · subst h
        rw [List.lookup_cons_self, List.lookup_cons_self, if_neg same]
      · rw [lookup_cons_of_ne h, lookup_cons_of_ne h, ih]

/-- A key that has a value keeps it, and all others keep theirs. -/
theorem lookup_putNew (table : Table κ α) (key query : κ) (value : α) :
    (table.putNew key value).lookup query =
      (table.lookup query).or (if query = key then some value else none) := by
  rw [putNew]
  by_cases there : (table.lookup key).isSome
  · rw [if_pos there]
    by_cases h : query = key
    · rw [h, Option.or_of_isSome there]
    · rw [if_neg h, Option.or_none]
  · rw [if_neg there, lookup_put]
    by_cases h : query = key
    · rw [if_pos h, if_pos h, h, Option.not_isSome_iff_eq_none.1 there, Option.none_or]
    · rw [if_neg h, if_neg h, Option.or_none]

/-- Taking the value from one key leaves all others theirs. -/
theorem lookup_erase (table : Table κ α) (key query : κ) :
    (table.erase key).lookup query = if query = key then none else table.lookup query := by
  induction table with
  | nil => simp [erase]
  | cons entry rest ih =>
    obtain ⟨other, held⟩ := entry
    rw [erase] at ih
    by_cases same : other = key
    · subst same
      rw [erase, List.filter_cons_of_neg (by simp), ih]
      by_cases h : query = other
      · rw [if_pos h, if_pos h]
      · rw [if_neg h, if_neg h, lookup_cons_of_ne h]
    · rw [erase, List.filter_cons_of_pos (by simpa using same)]
      by_cases h : query = other
      · subst h
        rw [List.lookup_cons_self, List.lookup_cons_self, if_neg same]
      · rw [lookup_cons_of_ne h, lookup_cons_of_ne h, ih]

/-- A key has a value exactly if it is among the keys. -/
theorem lookup_isSome_iff (table : Table κ α) (key : κ) :
    (table.lookup key).isSome ↔ key ∈ table.keys := by
  induction table with
  | nil => simp [keys]
  | cons entry rest ih =>
    obtain ⟨other, held⟩ := entry
    rw [keys, List.map_cons, List.mem_cons]
    by_cases h : key = other
    · simp [h]
    · rw [lookup_cons_of_ne h, ih, or_iff_right h, keys]

/-- If each key stands in one place, a look-up finds just the values that stand beside the key. -/
theorem lookup_eq_some_iff {table : Table κ α} (h : table.keys.Nodup) {key : κ} {value : α} :
    table.lookup key = some value ↔ (key, value) ∈ table := by
  induction table with
  | nil => simp
  | cons entry rest ih =>
    obtain ⟨other, held⟩ := entry
    rw [keys, List.map_cons, List.nodup_cons] at h
    by_cases same : key = other
    · subst same
      have absent : (key, value) ∉ rest := fun there => h.1 (List.mem_map.2 ⟨_, there, rfl⟩)
      simp [absent, eq_comm]
    · rw [lookup_cons_of_ne same, ih h.2, List.mem_cons]
      simp [same]

/-- A key without a value comes to stand at the end. -/
theorem put_of_not_mem {table : Table κ α} {key : κ} (h : key ∉ table.keys) (value : α) :
    table.put key value = table ++ [(key, value)] := by
  induction table with
  | nil => rfl
  | cons entry rest ih =>
    obtain ⟨other, held⟩ := entry
    rw [keys, List.map_cons, List.mem_cons, not_or] at h
    rw [put, if_neg (Ne.symm h.1), ih h.2, List.cons_append]

/-- A key that is there keeps its place. -/
theorem keys_put_of_mem {table : Table κ α} {key : κ} (h : key ∈ table.keys) (value : α) :
    (table.put key value).keys = table.keys := by
  induction table with
  | nil => simp [keys] at h
  | cons entry rest ih =>
    obtain ⟨other, held⟩ := entry
    by_cases same : other = key
    · simp [put, keys, same]
    · rw [keys, List.map_cons, List.mem_cons, or_iff_right (Ne.symm same)] at h
      have ih : (put rest key value).map (·.1) = rest.map (·.1) := ih h
      rw [put, if_neg same, keys, keys, List.map_cons, List.map_cons, ih]

/-- A key that is there keeps its place, a new one comes last. -/
theorem keys_put (table : Table κ α) (key : κ) (value : α) :
    (table.put key value).keys = if key ∈ table.keys then table.keys else table.keys ++ [key] := by
  split
  · next there => exact keys_put_of_mem there value
  · next absent => rw [put_of_not_mem absent, keys, List.map_append]; rfl

/-- No key comes to stand in two places. -/
theorem nodup_keys_put {table : Table κ α} (h : table.keys.Nodup) (key : κ) (value : α) :
    (table.put key value).keys.Nodup := by
  rw [keys_put]
  split
  · exact h
  · next absent =>
    refine List.nodup_append.2 ⟨h, by simp, ?_⟩
    intro a there b last same
    rw [List.mem_singleton] at last
    exact absent (by rwa [← last, ← same])

end Table

end EvidenceFlow
