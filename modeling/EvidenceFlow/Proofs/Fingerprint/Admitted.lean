import EvidenceFlow.Proofs.Fingerprint.Parts

/-!
# Evidence that a filter admits

Who knows what evidence is consumed may leave out the rest. This changes no fingerprint under a filter that
includes nothing of what is left out, and it changes every other one: a name that is included and left out
has a part of its own.
-/

namespace EvidenceFlow

open Text

/-! ## What is left -/

namespace Evidence

/-- The evidence without the entries that a filter does not include. -/
def only (filter : Filter) (e : Evidence) : Evidence :=
  ofList ((e.entries.filter fun entry => filter.includes entry.key).map fun entry => (entry.key, entry.value))

/-- Of pairs under different names those that are included are left. -/
theorem only_ofList (filter : Filter) {pairs : List (String × Json)}
    (hnodup : (pairs.map fun pair => lowercase pair.1).Nodup) :
    (ofList pairs).only filter = ofList (pairs.filter fun pair => filter.includes pair.1) := by
  rw [only, entries_ofList hnodup, List.filter_map, List.map_map]
  exact congrArg ofList (List.map_id _)

variable {e : Evidence}

/-- The evidence that a filter admits is coherent. -/
theorem coherent_only (filter : Filter) (e : Evidence) : (e.only filter).Coherent := coherent_ofList _

namespace Coherent

/-- The other entries stay as they are. -/
theorem entries_only (h : e.Coherent) (filter : Filter) :
    (e.only filter).entries = e.entries.filter fun entry => filter.includes entry.key := by
  rw [only, entries_ofList, List.map_map]
  · exact List.map_id _
  · rw [List.map_map]
    exact h.nodup.sublist (List.filter_sublist.map _)

/-- The keys that are left are those that the filter includes. -/
theorem keys_only (h : e.Coherent) (filter : Filter) :
    (e.only filter).keys = e.keys.filter filter.includes := by
  rw [keys, h.entries_only, keys, List.filter_map]
  rfl

end Coherent

end Evidence

/-! ## Fingerprints of what is left -/

namespace Fingerprint

open Evidence

variable {e : Evidence}

/-- What a filter does not include has no part. -/
theorem partOf?_eq_none {filter : Filter} {entry : Entry} (h : filter.includes entry.key = false) :
    partOf? filter entry = none := by
  rw [partOf?, Filter.weight?_eq_none h, Option.map_none]

/-- Evidence may be left out without a change of a fingerprint exactly if what the fingerprint is made of is
admitted. -/
theorem ofEvidence_only_iff (h : e.Coherent) (filter admitted : Filter) :
    ofEvidence filter (e.only admitted) = ofEvidence filter e ↔
      ∀ key ∈ e.keys, filter.includes key = true → admitted.includes key = true := by
  refine ⟨fun heq key hkey hincluded => ?_, fun hadmitted => ?_⟩
  · -- the part of the name is in both fingerprints, so the name has been admitted in the spelling that it has
    obtain ⟨weight, hweight⟩ := Option.isSome_iff_exists.mp (filter.includes_eq_isSome key ▸ hincluded)
    obtain ⟨entry, hentry, rfl⟩ := List.mem_map.mp hkey
    have htext : e.text? entry.key = some entry.value.canonicalText := by
      rw [text?, h.get?_of_mem hentry, Option.map_some]
    have hpart : ⟨weight, lowercase entry.key, entry.value.canonicalText⟩ ∈ (ofEvidence filter e).parts :=
      (mem_parts h).mpr ⟨entry.key, hkey, hweight, rfl, htext⟩
    rw [← heq] at hpart
    obtain ⟨other, hother, -, hsame, -⟩ := (mem_parts (coherent_only admitted e)).mp hpart
    rw [h.keys_only, List.mem_filter] at hother
    rw [h.eq_of_lowercase_eq hkey hother.1 hsame.symm]
    exact hother.2
  · have hparts : ∀ entry ∈ e.entries,
        (if admitted.includes entry.key then partOf? filter entry else none) = partOf? filter entry := by
      intro entry hentry
      split
      · rfl
      · next hleft =>
        refine (partOf?_eq_none (Bool.eq_false_iff.mpr fun hincluded => hleft ?_)).symm
        exact hadmitted entry.key (List.mem_map_of_mem hentry) hincluded
    rw [ofEvidence, h.entries_only, List.filterMap_filter, List.filterMap_congr hparts]
    rfl

end Fingerprint

end EvidenceFlow
