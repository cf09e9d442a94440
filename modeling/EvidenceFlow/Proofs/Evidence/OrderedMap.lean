import EvidenceFlow.Proofs.Evidence.Additions

/-!
# Evidence as a map in order

Evidence that is built by additions is a map from names in lower case to values. It has one entry for each
name under which something was given, in the order in which the names first came; the entry is spelled as the
name was first, and holds what was given last. Its index leads from each name to its position, and nowhere
else.
-/

namespace EvidenceFlow.Evidence

open Text

/-- Of what is added at the end only a new element is kept. -/
theorem eraseDups_concat {α : Type} [DecidableEq α] (before : List α) (last : α) :
    (before ++ [last]).eraseDups = if last ∈ before then before.eraseDups else before.eraseDups ++ [last] := by
  have hsingle : [last].eraseDups = [last] := by rw [List.eraseDups_cons, List.filter_nil, List.eraseDups_nil]
  rw [List.eraseDups_append]
  split
  · next hthere => simp [List.removeAll, hthere]
  · next hnew => simp [List.removeAll, hnew, hsingle]

/-- The names stand in the order in which they first came. -/
theorem names_ofList (pairs : List (String × Json)) :
    (ofList pairs).names = (pairs.map fun pair => lowercase pair.1).eraseDups := by
  induction pairs using List.reverseRecOn with
  | nil => rfl
  | append_singleton pairs pair ih =>
    have hgiven : lowercase pair.1 ∈ (pairs.map fun pair => lowercase pair.1) ↔ given pairs pair.1 ≠ [] := by
      rw [← mem_names_ofList, ih, List.mem_eraseDups]
    rw [Coherent.names_eq_keys, keys_ofList_concat, List.map_append, List.map_singleton, eraseDups_concat, ← ih,
      Coherent.names_eq_keys]
    by_cases hnone : given pairs pair.1 = []
    · rw [if_pos hnone, if_neg (by rw [hgiven]; exact not_not_intro hnone), List.map_append]
      rfl
    · rw [if_neg hnone, if_pos (hgiven.mpr hnone)]

/-- An entry has the first spelling and the last value that were given under its name. -/
theorem entry_ofList {pairs : List (String × Json)} {entry : Entry} (h : entry ∈ (ofList pairs).entries) :
    (given pairs entry.key).head?.map (·.1) = some entry.key ∧
      (given pairs entry.key).getLast?.map (·.2) = some entry.value := by
  have hfound : (ofList pairs).entryOf? entry.key = some entry :=
    (coherent_ofList pairs).entryOf?_eq_some_iff.mpr ⟨h, rfl⟩
  constructor
  · exact (mem_keys_ofList pairs entry.key).mp (List.mem_map_of_mem h)
  · rw [← get?_ofList, (coherent_ofList pairs).get?_eq, hfound, Option.map_some]

/-- The index leads from a name to the position of its entry. -/
theorem Coherent.lookup_index_eq_some_iff {e : Evidence} (h : e.Coherent) {name : String} {position : Nat} :
    e.index.lookup name = some position ↔ e.names[position]? = some name := by
  have hkeys : e.index.keys.Nodup := by
    rw [h.index_eq, Table.keys, List.zipIdx_map_fst]
    exact h.nodup
  rw [Table.lookup_eq_some_iff hkeys, h.index_eq, List.mk_mem_zipIdx_iff_getElem?]

/-- Evidence that is built by additions has one entry for each name in lower case that was given, in the order
in which they first came. Each is spelled as the name was first and holds its last value. Whatever its
spelling, a name is found just if something was given under it, and what was given last is its value. The
index leads from the names to the positions of their entries and holds nothing else. -/
theorem ofList_eq_map (pairs : List (String × Json)) :
    (ofList pairs).names = (pairs.map fun pair => lowercase pair.1).eraseDups ∧
    (∀ entry ∈ (ofList pairs).entries,
      (given pairs entry.key).head?.map (·.1) = some entry.key ∧
        (given pairs entry.key).getLast?.map (·.2) = some entry.value) ∧
    (∀ key, (ofList pairs).get? key = (given pairs key).getLast?.map (·.2) ∧
      ((ofList pairs).contains key = true ↔ given pairs key ≠ [])) ∧
    (∀ name position, (ofList pairs).index.lookup name = some position ↔
      (ofList pairs).names[position]? = some name) ∧
    (ofList pairs).index.length = (ofList pairs).entries.length := by
  have hcoherent := coherent_ofList pairs
  refine ⟨names_ofList pairs, fun entry hentry => entry_ofList hentry, fun key => ⟨get?_ofList pairs key, ?_⟩,
    fun name position => hcoherent.lookup_index_eq_some_iff, ?_⟩
  · rw [hcoherent.contains_eq, isSome_entryOf?, mem_names_ofList]
  · exact beq_iff_eq.mp hcoherent.isIndexed

end EvidenceFlow.Evidence
