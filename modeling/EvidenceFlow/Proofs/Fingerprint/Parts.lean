import EvidenceFlow.Fingerprint
import EvidenceFlow.Proofs.Evidence.Additions
import EvidenceFlow.Proofs.Filter.Names

/-!
# The parts of a fingerprint

The parts of the fingerprint of coherent evidence are those of its names, as they are spelled there:
a name to which the filter gives a weight, in lower case, with the text of its value. Only their order
is the order of weights.
-/

namespace EvidenceFlow

open Text

/-! ## Values as texts -/

namespace Evidence

variable {e : Evidence}

/-- The text by which the value of a name is compared. -/
def text? (e : Evidence) (key : String) : Option String :=
  (e.get? key).map Json.canonicalText

namespace Coherent

/-- Each entry is found under its spelling. -/
theorem get?_of_mem (h : e.Coherent) {entry : Entry} (hentry : entry ∈ e.entries) :
    e.get? entry.key = some entry.value := by
  rw [h.get?_eq, h.entryOf?_eq_some_iff.mpr ⟨hentry, rfl⟩, Option.map_some]

/-- A name may be spelled in any way. -/
theorem get?_congr (h : e.Coherent) {key other : String} (hsame : lowercase key = lowercase other) :
    e.get? key = e.get? other := by
  rw [h.get?_eq, h.get?_eq, entryOf?, entryOf?, hsame]

/-- The spellings of a name have one text. -/
theorem text?_congr (h : e.Coherent) {key other : String} (hsame : lowercase key = lowercase other) :
    e.text? key = e.text? other := by
  rw [text?, text?, h.get?_congr hsame]

/-- A name with a value has a spelling. -/
theorem exists_mem_keys (h : e.Coherent) {key text : String} (htext : e.text? key = some text) :
    ∃ spelling ∈ e.keys, lowercase spelling = lowercase key := by
  rw [text?, h.get?_eq, Option.map_map] at htext
  obtain ⟨entry, hentry, -⟩ := Option.map_eq_some_iff.mp htext
  exact ⟨entry.key, List.mem_map_of_mem (List.mem_of_find?_eq_some hentry), lowercase_of_entryOf? hentry⟩

end Coherent

/-- The text under a key is that of the value that was given last. -/
theorem text?_ofList (pairs : List (String × Json)) (key : String) :
    (ofList pairs).text? key = (given pairs key).getLast?.map (·.2.canonicalText) := by
  rw [text?, get?_ofList, Option.map_map]
  rfl

end Evidence

/-! ## Parts by names -/

namespace Fingerprint

variable {filter : Filter} {e : Evidence}

/-- The part that a filter sees in the value of a name. -/
def partAt? (filter : Filter) (e : Evidence) (key : String) : Option Part :=
  (filter.weight? key).bind fun weight => (e.text? key).map (Part.mk weight (lowercase key))

/-- A part has the weight that the filter gives, the name in lower case and the text. -/
theorem partAt?_eq_some_iff {key : String} {part : Part} :
    partAt? filter e key = some part ↔
      filter.weight? key = some part.weight ∧ lowercase key = part.name ∧ e.text? key = some part.value := by
  rw [partAt?, Option.bind_eq_some_iff]
  constructor
  · rintro ⟨weight, hweight, hpart⟩
    obtain ⟨text, htext, rfl⟩ := Option.map_eq_some_iff.mp hpart
    exact ⟨hweight, rfl, htext⟩
  · rintro ⟨hweight, hname, htext⟩
    exact ⟨part.weight, hweight, Option.map_eq_some_iff.mpr ⟨part.value, htext, hname ▸ rfl⟩⟩

/-- A name that the filter does not include has no part. -/
theorem partAt?_eq_none {key : String} (h : filter.includes key = false) : partAt? filter e key = none := by
  rw [partAt?, Filter.weight?_eq_none h, Option.bind_none]

/-- The fingerprint is made of the parts of the names in the order of the evidence. -/
theorem ofEvidence_eq (h : e.Coherent) (filter : Filter) :
    ofEvidence filter e = ofParts (e.keys.filterMap (partAt? filter e)) := by
  have hpart : ∀ entry ∈ e.entries, partOf? filter entry = partAt? filter e entry.key := by
    intro entry hentry
    rw [partOf?, partAt?, Evidence.text?, h.get?_of_mem hentry]
    cases filter.weight? entry.key <;> rfl
  rw [ofEvidence, Evidence.keys, List.filterMap_map, List.filterMap_congr hpart]
  rfl

/-- What is in the fingerprint. -/
theorem mem_parts (h : e.Coherent) {part : Part} :
    part ∈ (ofEvidence filter e).parts ↔
      ∃ key ∈ e.keys, filter.weight? key = some part.weight ∧ lowercase key = part.name ∧
        e.text? key = some part.value := by
  rw [ofEvidence_eq h, ofParts, List.mem_mergeSort, List.mem_filterMap]
  simp only [partAt?_eq_some_iff]

end Fingerprint

end EvidenceFlow
