import EvidenceFlow.Proofs.Fingerprint.Parts

/-!
# Fingerprints and unrelated evidence

What a filter does not include is not in a fingerprint; but the filter is asked about the spelling in
which a name came first, and the evidence holds the value that came last. So under a filter for which
the spelling matters, a pair that is not included may hide an included one behind its spelling, or
replace its value. Leaving it out changes nothing exactly if neither happens, and never under a filter
that ignores case.
-/

namespace EvidenceFlow.Fingerprint

open Evidence Text

variable {filter : Filter} {pairs : List (String × Json)}

/-- What is given in a spelling that the filter includes. -/
def included (filter : Filter) (pairs : List (String × Json)) : List (String × Json) :=
  pairs.filter fun pair => filter.includes pair.1

/-- What is not included does not disturb what is: under each name that is given in an included
spelling, the first spelling is included, and the last value has the text of the last included one. -/
def Undisturbed (filter : Filter) (pairs : List (String × Json)) : Prop :=
  ∀ pair ∈ pairs, filter.includes pair.1 = true →
    (∀ first ∈ (given pairs pair.1).head?, filter.includes first.1 = true) ∧
    (given pairs pair.1).getLast?.map (·.2.canonicalText) =
      (given (included filter pairs) pair.1).getLast?.map (·.2.canonicalText)

/-- What is given under a key by included pairs are the included ones of those given under it. -/
theorem given_included (filter : Filter) (pairs : List (String × Json)) (key : String) :
    given (included filter pairs) key = (given pairs key).filter fun pair => filter.includes pair.1 :=
  List.filter_comm _ _ pairs

/-- The part of a name in the fingerprint of what is given: the filter is asked about the first spelling,
and the text is that of the last value. -/
theorem mem_parts_ofList {key text : String} {weight : Int} :
    ⟨weight, lowercase key, text⟩ ∈ (ofEvidence filter (ofList pairs)).parts ↔
      (∃ first ∈ (given pairs key).head?, filter.weight? first.1 = some weight) ∧
        (given pairs key).getLast?.map (·.2.canonicalText) = some text := by
  rw [mem_parts (coherent_ofList pairs)]
  constructor
  · rintro ⟨spelling, hspelling, hweight, hsame, htext⟩
    rw [mem_keys_ofList, given_congr hsame] at hspelling
    obtain ⟨first, hfirst, rfl⟩ := Option.map_eq_some_iff.mp hspelling
    rw [text?_ofList, given_congr hsame] at htext
    exact ⟨⟨first, hfirst, hweight⟩, htext⟩
  · rintro ⟨⟨first, hfirst, hweight⟩, htext⟩
    have hsame : lowercase first.1 = lowercase key := (mem_given.mp (List.mem_of_head? hfirst)).2
    refine ⟨first.1, ?_, hweight, hsame, ?_⟩
    · rw [mem_keys_ofList, given_congr hsame, Option.mem_def.mp hfirst, Option.map_some]
    · rw [text?_ofList, given_congr hsame, htext]

/-! ## Spellings -/

/-- A name whose first spelling is included is new among the included pairs only if it is new. -/
theorem given_included_eq_nil_iff {key : String}
    (h : ∀ first ∈ (given pairs key).head?, filter.includes first.1 = true) :
    given (included filter pairs) key = [] ↔ given pairs key = [] := by
  rw [given_included]
  refine ⟨fun hnone => ?_, fun hnone => by rw [hnone, List.filter_nil]⟩
  cases hgiven : given pairs key with
  | nil => rfl
  | cons first rest =>
    rw [hgiven] at h hnone
    exact absurd (h first rfl) (List.filter_eq_nil_iff.mp hnone first List.mem_cons_self)

/-- If the first spelling of each included name is included, the spellings are the included ones. -/
theorem keys_ofList_included
    (h : ∀ pair ∈ pairs, filter.includes pair.1 = true →
      ∀ first ∈ (given pairs pair.1).head?, filter.includes first.1 = true) :
    (ofList (included filter pairs)).keys = (ofList pairs).keys.filter filter.includes := by
  induction pairs using List.reverseRecOn with
  | nil => rfl
  | append_singleton pairs pair ih =>
    have hbefore : ∀ earlier ∈ pairs, filter.includes earlier.1 = true →
        ∀ first ∈ (given pairs earlier.1).head?, filter.includes first.1 = true := by
      intro earlier hearlier hincluded first hfirst
      refine h earlier (List.mem_append_left _ hearlier) hincluded first ?_
      rw [given_concat]
      split
      · exact List.mem_head?_append_of_mem_head? hfirst
      · exact hfirst
    rw [included, filter_concat]
    split
    · next hincluded =>
      have hnew : given (included filter pairs) pair.1 = [] ↔ given pairs pair.1 = [] := by
        refine given_included_eq_nil_iff fun first hfirst => ?_
        refine h pair (List.mem_append_right _ (List.mem_singleton_self pair)) hincluded first ?_
        rw [given_concat, if_pos rfl]
        exact List.mem_head?_append_of_mem_head? hfirst
      rw [← included, keys_ofList_concat, keys_ofList_concat, ih hbefore]
      simp only [hnew]
      split
      · rw [filter_concat, if_pos hincluded]
      · rfl
    · next hexcluded =>
      rw [← included, keys_ofList_concat, ih hbefore]
      split
      · rw [filter_concat, if_neg hexcluded]
      · rfl

/-! ## Leaving out what is not included -/

/-- Left out pairs that disturb nothing are not missed. -/
theorem ofEvidence_included (h : Undisturbed filter pairs) :
    ofEvidence filter (ofList (included filter pairs)) = ofEvidence filter (ofList pairs) := by
  rw [ofEvidence_eq (coherent_ofList _), ofEvidence_eq (coherent_ofList _),
    keys_ofList_included fun pair hpair hincluded => (h pair hpair hincluded).1, List.filterMap_filter]
  congr 1
  refine List.filterMap_congr fun key hkey => ?_
  split
  · next hincluded =>
    obtain ⟨pair, hpair, rfl⟩ := Option.map_eq_some_iff.mp ((mem_keys_ofList pairs key).mp hkey)
    have hmem : pair ∈ pairs := (mem_given.mp (List.mem_of_head? hpair)).1
    rw [partAt?, partAt?, text?_ofList, text?_ofList, (h pair hmem hincluded).2]
  · next hexcluded => exact (partAt?_eq_none (Bool.eq_false_iff.mpr hexcluded)).symm

/-- If left out pairs are not missed, they disturb nothing. -/
theorem undisturbed_of_ofEvidence_included
    (h : ofEvidence filter (ofList (included filter pairs)) = ofEvidence filter (ofList pairs)) :
    Undisturbed filter pairs := by
  intro pair hpair hincluded
  have hmem : pair ∈ given (included filter pairs) pair.1 :=
    mem_given.mpr ⟨List.mem_filter.mpr ⟨hpair, hincluded⟩, rfl⟩
  obtain ⟨first, rest, hgiven⟩ := List.exists_cons_of_ne_nil (List.ne_nil_of_mem hmem)
  have hfirst : filter.includes first.1 = true := by
    have hinside : first ∈ given (included filter pairs) pair.1 := hgiven ▸ List.mem_cons_self
    exact (List.mem_filter.mp (mem_given.mp hinside).1).2
  rw [Filter.includes_eq_isSome, Option.isSome_iff_exists] at hfirst
  obtain ⟨weight, hweight⟩ := hfirst
  obtain ⟨last, hlast⟩ := Option.isSome_iff_exists.mp (List.getLast?_isSome.mpr (List.ne_nil_of_mem hmem))
  -- the part of the name among the included pairs is that among all pairs
  have hpart : ⟨weight, lowercase pair.1, last.2.canonicalText⟩ ∈
      (ofEvidence filter (ofList (included filter pairs))).parts := by
    refine mem_parts_ofList.mpr ⟨⟨first, ?_, hweight⟩, ?_⟩
    · rw [hgiven, List.head?_cons, Option.mem_some]
    · rw [hlast, Option.map_some]
  rw [h, mem_parts_ofList] at hpart
  obtain ⟨⟨kept, hkept, hweight'⟩, htext⟩ := hpart
  refine ⟨fun other hother => ?_, ?_⟩
  · obtain rfl : kept = other := Option.mem_unique hkept hother
    rw [Filter.includes_eq_isSome, hweight', Option.isSome_some]
  · rw [htext, hlast, Option.map_some]

/-- Under a filter that ignores case nothing is disturbed. -/
theorem undisturbed_of_ignoresCase (hfilter : filter.IgnoresCase) (pairs : List (String × Json)) :
    Undisturbed filter pairs := by
  intro pair _ hincluded
  have hall : ∀ other ∈ given pairs pair.1, filter.includes other.1 = true := by
    intro other hother
    have hsame : lowercase other.1 = lowercase pair.1 := (mem_given.mp hother).2
    rw [Filter.includes_eq_isSome] at hincluded ⊢
    rw [hfilter other.1 pair.1 hsame, hincluded]
  refine ⟨fun first hfirst => hall first (List.mem_of_head? hfirst), ?_⟩
  rw [given_included, List.filter_eq_self.mpr hall]

/-- Evidence that a filter does not include may be left out without a change of the fingerprint exactly
if it does not disturb what is included, as under every filter made of tables that ignore case. -/
theorem ofEvidence_included_iff (filter : Filter) (pairs : List (String × Json)) :
    (ofEvidence filter (ofList (included filter pairs)) = ofEvidence filter (ofList pairs) ↔
      Undisturbed filter pairs) ∧
    ((filter.MadeOf fun table => table.caseSensitive = false) →
      ofEvidence filter (ofList (included filter pairs)) = ofEvidence filter (ofList pairs)) := by
  refine ⟨⟨undisturbed_of_ofEvidence_included, ofEvidence_included⟩, fun hmade => ?_⟩
  exact ofEvidence_included (undisturbed_of_ignoresCase (hmade.ignoresCase fun _ htable => htable) pairs)

/-- A name that must be spelled so is hidden behind another spelling that came first. -/
theorem ofEvidence_included_ne_of_spelling :
    ofEvidence (.whitelist (.exactly [("a", 0)]))
        (ofList (included (.whitelist (.exactly [("a", 0)])) [("A", .int 1), ("a", .int 2)])) ≠
      ofEvidence (.whitelist (.exactly [("a", 0)])) (ofList [("A", .int 1), ("a", .int 2)]) := by
  intro heq
  have hundisturbed := undisturbed_of_ofEvidence_included heq ("a", .int 2) (by simp) (by decide)
  have hfirst : (given [("A", .int 1), ("a", .int 2)] "a").head? = some ("A", .int 1) := by
    rw [given, List.filter_cons_of_pos (by decide)]
    rfl
  exact absurd (hundisturbed.1 ("A", .int 1) hfirst) (by decide)

end EvidenceFlow.Fingerprint
