import EvidenceFlow.Proofs.Fingerprint.Parts

/-!
# Fingerprints stand for what is consumed

Under a filter that ignores case a fingerprint tells, for each name that the filter includes, whether
there is a value and how it reads; and it is made of nothing else than the names in lower case and
the readings of the values that the filter includes, in their order. So what is kept under a fingerprint
fits every request with that fingerprint, and is found again however the names are spelled.

How a value reads is said here without the text that fingerprints are made of, and shown to be that text.
-/

namespace EvidenceFlow

open Text

/-! ## How values read -/

/-- A value that is a text reads as its content, and any other value as it is written. -/
inductive Json.ReadsAs : Json → String → Prop
  | content (s : String) : ReadsAs (.str s) s
  | written {v : Json} (hvalue : ∀ s, v ≠ .str s) : ReadsAs v v.compact

/-- A value reads as the text that stands in fingerprints, and as nothing else. -/
theorem Json.readsAs_iff {v : Json} {form : String} : v.ReadsAs form ↔ form = v.canonicalText := by
  constructor
  · rintro (_ | hvalue)
    · rfl
    · cases v with
      | str s => exact absurd rfl (hvalue s)
      | _ => rfl
  · rintro rfl
    cases v with
    | str s => exact .content s
    | _ => exact .written fun s heq => by cases heq

/-- Two values read the same. -/
def Json.ReadsLike (v w : Json) : Prop := ∃ form, v.ReadsAs form ∧ w.ReadsAs form

/-- Two values read the same if one text stands for both in fingerprints. -/
theorem Json.readsLike_iff {v w : Json} : v.ReadsLike w ↔ v.canonicalText = w.canonicalText := by
  simp only [ReadsLike, readsAs_iff]
  exact ⟨fun ⟨_, hv, hw⟩ => hv.symm.trans hw, fun heq => ⟨_, rfl, heq⟩⟩

/-- Two entries of evidence have one name, however it is spelled, and values that read the same. -/
structure Evidence.Entry.Matches (a b : Evidence.Entry) : Prop where
  /-- The names differ in spelling at most. -/
  name : lowercase a.key = lowercase b.key
  /-- The values read the same. -/
  value : a.value.ReadsLike b.value

namespace Fingerprint

variable {filter : Filter} {e e' : Evidence}

/-! ## What a fingerprint tells -/

/-- The text of a value is in the fingerprint if the filter includes the name. -/
theorem mem_parts_iff_text? (h : e.Coherent) (hfilter : filter.IgnoresCase) {key text : String} {weight : Int}
    (hweight : filter.weight? key = some weight) :
    ⟨weight, lowercase key, text⟩ ∈ (ofEvidence filter e).parts ↔ e.text? key = some text := by
  rw [mem_parts h]
  constructor
  · rintro ⟨spelling, -, -, hsame, htext⟩
    rw [← htext, h.text?_congr hsame]
  · intro htext
    obtain ⟨spelling, hspelling, hsame⟩ := h.exists_mem_keys htext
    refine ⟨spelling, hspelling, ?_, hsame, ?_⟩
    · rw [hfilter spelling key hsame, hweight]
    · rw [h.text?_congr hsame, htext]

/-- Equal fingerprints mean equal texts of what the filter includes. -/
theorem text?_eq_of_ofEvidence_eq (h : e.Coherent) (h' : e'.Coherent) (hfilter : filter.IgnoresCase)
    (heq : ofEvidence filter e = ofEvidence filter e') {key : String} (hkey : filter.includes key = true) :
    e.text? key = e'.text? key := by
  rw [Filter.includes_eq_isSome, Option.isSome_iff_exists] at hkey
  obtain ⟨weight, hweight⟩ := hkey
  refine Option.ext fun text => ?_
  rw [← mem_parts_iff_text? h hfilter hweight, heq, mem_parts_iff_text? h' hfilter hweight]

/-! ## What a fingerprint is made of -/

/-- What the filter includes: the names in lower case and the texts of their values, in order. -/
def consumed (filter : Filter) (e : Evidence) : List (String × String) :=
  (e.entries.filter fun entry => filter.includes entry.key).map
    fun entry => (lowercase entry.key, entry.value.canonicalText)

/-- The part of a name in lower case with its text. -/
def partOfText? (filter : Filter) (named : String × String) : Option Part :=
  (filter.weight? named.1).map fun weight => ⟨weight, named.1, named.2⟩

/-- The fingerprint is made of what the filter includes. -/
theorem ofEvidence_eq_consumed (hfilter : filter.IgnoresCase) (e : Evidence) :
    ofEvidence filter e = ofParts ((consumed filter e).filterMap (partOfText? filter)) := by
  have hpart (entry : Evidence.Entry) : partOf? filter entry =
      if filter.includes entry.key then partOfText? filter (lowercase entry.key, entry.value.canonicalText)
      else none := by
    rw [partOfText?, hfilter _ _ (lowercase_lowercase entry.key), Filter.includes_eq_isSome, partOf?]
    cases filter.weight? entry.key <;> rfl
  rw [ofEvidence, consumed, List.filterMap_map, List.filterMap_filter, funext hpart]
  rfl

/-- The entries of evidence that a filter includes, in order. -/
def includedIn (filter : Filter) (e : Evidence) : List Evidence.Entry :=
  e.entries.filter fun entry => filter.includes entry.key

/-- What is included has the same names and texts if the included entries match in order. -/
theorem consumed_eq_iff_matches :
    consumed filter e = consumed filter e' ↔
      List.Forall₂ Evidence.Entry.Matches (includedIn filter e) (includedIn filter e') := by
  have hentry (a b : Evidence.Entry) :
      (lowercase a.key, a.value.canonicalText) = (lowercase b.key, b.value.canonicalText) ↔ a.Matches b := by
    rw [Prod.mk.injEq, ← Json.readsLike_iff]
    exact ⟨fun h => ⟨h.1, h.2⟩, fun h => ⟨h.name, h.value⟩⟩
  rw [consumed, consumed, ← List.forall₂_eq_eq_eq, List.forall₂_map_left_iff, List.forall₂_map_right_iff]
  simp only [hentry]
  rfl

/-- Two requests with one fingerprint under a filter that ignores case agree on every name that the
filter includes: neither has a value or the values read the same. And they have one fingerprint as soon
as the entries that the filter includes match in order, whatever else is given. -/
theorem ofEvidence_memoizes (h : filter.MadeOf fun table => table.caseSensitive = false)
    (xs ys : List (String × Json)) :
    (ofEvidence filter (.ofList xs) = ofEvidence filter (.ofList ys) →
      ∀ key, filter.includes key = true →
        Option.Rel Json.ReadsLike ((Evidence.ofList xs).get? key) ((Evidence.ofList ys).get? key)) ∧
    (List.Forall₂ Evidence.Entry.Matches (includedIn filter (.ofList xs)) (includedIn filter (.ofList ys)) →
      ofEvidence filter (.ofList xs) = ofEvidence filter (.ofList ys)) := by
  have hfilter : filter.IgnoresCase := h.ignoresCase fun _ htable => htable
  refine ⟨fun heq key hkey => ?_, fun hmatch => ?_⟩
  · have htext := text?_eq_of_ofEvidence_eq (Evidence.coherent_ofList xs) (Evidence.coherent_ofList ys)
      hfilter heq hkey
    rw [Evidence.text?, Evidence.text?] at htext
    cases hx : (Evidence.ofList xs).get? key <;> cases hy : (Evidence.ofList ys).get? key <;>
      rw [hx, hy] at htext
    · exact .none
    · cases htext
    · cases htext
    · exact .some (Json.readsLike_iff.mpr (Option.some.inj htext))
  · rw [ofEvidence_eq_consumed hfilter, ofEvidence_eq_consumed hfilter, consumed_eq_iff_matches.mpr hmatch]

/-- The session ahead of a table with a name that is spelled in two ways. -/
def sessionAndAgent : Filter :=
  .session (({} : Filter.Union).addWhitelist (.weighted [("User-Agent", 2), ("user-agent", 5)])).toFilter

/-- A request with a session and an agent. -/
def request : List (String × Json) :=
  [("USER-agent", .str "a"), ("accept", .bool true), ("Session.ID", .int 7)]

/-- The request with other spellings and other names among them. -/
def respelled : List (String × Json) :=
  [("user-AGENT", .str "b"), ("session.id", .str "7"), ("User-Agent", .str "a"), ("ACCEPT", .bool false)]

/-- The request in another session. -/
def relocated : List (String × Json) :=
  [("USER-agent", .str "a"), ("accept", .bool true), ("Session.ID", .int 8)]

/-- The first two requests have one fingerprint, and it tells their session; the third one has another
fingerprint. -/
theorem ofEvidence_memoizes_of_respelled :
    List.Forall₂ Evidence.Entry.Matches (includedIn sessionAndAgent (.ofList request))
        (includedIn sessionAndAgent (.ofList respelled)) ∧
      ofEvidence sessionAndAgent (.ofList request) = ofEvidence sessionAndAgent (.ofList respelled) ∧
      Option.Rel Json.ReadsLike ((Evidence.ofList request).get? "SESSION.id")
        ((Evidence.ofList respelled).get? "SESSION.id") ∧
      ofEvidence sessionAndAgent (.ofList request) ≠ ofEvidence sessionAndAgent (.ofList relocated) := by
  have hmade : sessionAndAgent.MadeOf fun table => table.caseSensitive = false :=
    .session (.union (.addWhitelist .empty rfl))
  have hsession : sessionAndAgent.includes "SESSION.id" = true := by decide +kernel
  obtain ⟨hvalues, hequal⟩ := ofEvidence_memoizes hmade request respelled
  have hmatch : List.Forall₂ Evidence.Entry.Matches (includedIn sessionAndAgent (.ofList request))
      (includedIn sessionAndAgent (.ofList respelled)) :=
    consumed_eq_iff_matches.mp (by decide +kernel)
  refine ⟨hmatch, hequal hmatch, hvalues (hequal hmatch) "SESSION.id" hsession, fun heq => ?_⟩
  have hother := (ofEvidence_memoizes hmade request relocated).1 heq "SESSION.id" hsession
  have hseven : (Evidence.ofList request).get? "SESSION.id" = some (.int 7) := rfl
  have height : (Evidence.ofList relocated).get? "SESSION.id" = some (.int 8) := rfl
  rw [hseven, height] at hother
  cases hother with
  | some hlike => exact absurd (Json.readsLike_iff.mp hlike) (by decide)

end Fingerprint

end EvidenceFlow
