import EvidenceFlow.Proofs.Engine.Transparency

/-!
# What a pipeline remembers of its properties

A pipeline searches for properties up to the case of ASCII letters, but remembers what it has found under
the lower case of the name, over all of Unicode. So once a property has been found, every name of that lower
case is answered with it, also one that a search would not find or would find another property under. As
long as names of one lower case differ in ASCII letters only, what is remembered makes no difference.
-/

namespace EvidenceFlow.Pipeline

open Text

variable {υ : Type} {p q : Pipeline υ} {asked : List String}

/-! ## Searches -/

/-- A search goes by the name up to the case of ASCII letters. -/
theorem declaring_congr (p : Pipeline υ) {name other : String} (h : eqUpToAsciiCase name other = true) :
    p.declaring name = p.declaring other := by
  rw [eqUpToAsciiCase, beq_iff_eq] at h
  simp only [declaring, eqUpToAsciiCase, h]

/-- A property is found if it is the only one of the name. -/
theorem findProperty_eq_ok_iff {name : String} {property : Property} :
    p.findProperty name = .ok property ↔ p.declaring name = [property] := by
  rw [findProperty]
  rcases p.declaring name with _ | ⟨first, _ | ⟨second, rest⟩⟩ <;> simp

/-- What is found under one name is found under another one of the same lower case. -/
def Finds (p : Pipeline υ) (name other : String) : Prop :=
  lowercase name = lowercase other →
    ∀ property, p.findProperty name = .ok property → p.findProperty other = .ok property

/-- Names that differ in the case of ASCII letters only are found alike. -/
theorem finds_of_eqUpToAsciiCase (p : Pipeline υ) {name other : String}
    (h : lowercase name = lowercase other → eqUpToAsciiCase name other = true) : p.Finds name other := by
  intro hsame property hfound
  rw [findProperty_eq_ok_iff] at hfound ⊢
  rwa [← p.declaring_congr (h hsame)]

/-! ## Names asked for one after the other -/

/-- Asks for the properties of names, one after the other. -/
def askAll (p : Pipeline υ) : List String → List (Except Fault Property) × Pipeline υ
  | [] => ([], p)
  | name :: rest =>
    let (found, p) := p.metadataFor name
    let (later, p) := p.askAll rest
    (found :: later, p)

/-- The property that was found first under the lower case of a name, of the names asked for so far. -/
def recalled? (p : Pipeline υ) (asked : List String) (name : String) : Option Property :=
  asked.findSome? fun earlier =>
    if lowercase earlier = lowercase name then (p.findProperty earlier).toOption else none

/-- What is answered after other names have been asked for: what is remembered, or else what is found. -/
def answerAfter (p : Pipeline υ) (asked : List String) (name : String) : Except Fault Property :=
  match p.recalled? asked name with
  | some property => .ok property
  | none => p.findProperty name

/-- The name that was asked for last is recalled unless an earlier one is. -/
theorem recalled?_concat (p : Pipeline υ) (asked : List String) (last name : String) :
    p.recalled? (asked ++ [last]) name =
      (p.recalled? asked name).or
        (if lowercase last = lowercase name then (p.findProperty last).toOption else none) := by
  rw [recalled?, List.findSome?_append, List.findSome?_singleton]
  rfl

/-- The names that were asked for differ from the pipeline as it was only in what is remembered, which is
what was found first. -/
structure Recalls (p : Pipeline υ) (asked : List String) (q : Pipeline υ) : Prop where
  /-- The stages stay. -/
  stages_eq : q.stages = p.stages
  /-- Under each lower case there is what was found first. -/
  lookup_eq : ∀ name, q.metadata.lookup (lowercase name) = p.recalled? asked name

namespace Recalls

/-- What is remembered plays no part in the search. -/
theorem findProperty_eq (h : p.Recalls asked q) (name : String) :
    q.findProperty name = p.findProperty name := by
  simp only [findProperty, declaring, elements, h.stages_eq]

/-- A question is answered by what is remembered or found, and what is found is remembered. -/
theorem metadataFor (h : p.Recalls asked q) (name : String) :
    (q.metadataFor name).1 = p.answerAfter asked name ∧
      p.Recalls (asked ++ [name]) (q.metadataFor name).2 := by
  rw [Pipeline.metadataFor, h.lookup_eq, h.findProperty_eq, answerAfter]
  cases hrecalled : p.recalled? asked name with
  | some property =>
    refine ⟨rfl, h.stages_eq, fun other => ?_⟩
    rw [recalled?_concat, h.lookup_eq]
    by_cases hsame : lowercase name = lowercase other
    · have hother : p.recalled? asked other = some property := by
        rw [← h.lookup_eq, ← hsame, h.lookup_eq, hrecalled]
      rw [hother, Option.some_or]
    · rw [if_neg hsame, Option.or_none]
  | none =>
    cases hfound : p.findProperty name with
    | ok property =>
      refine ⟨rfl, h.stages_eq, fun other => ?_⟩
      rw [recalled?_concat, Table.lookup_put, h.lookup_eq, hfound]
      by_cases hsame : lowercase name = lowercase other
      · have hother : p.recalled? asked other = none := by
          rw [← h.lookup_eq, ← hsame, h.lookup_eq, hrecalled]
        rw [if_pos hsame.symm, if_pos hsame, hother, Option.none_or]
        rfl
      · rw [if_neg (Ne.symm hsame), if_neg hsame, Option.or_none]
    | error fault =>
      refine ⟨rfl, h.stages_eq, fun other => ?_⟩
      rw [recalled?_concat, h.lookup_eq, hfound]
      split <;> exact Option.or_none.symm

/-- Questions in a row leave what was found first. -/
theorem askAll (h : p.Recalls asked q) (names : List String) :
    p.Recalls (asked ++ names) (q.askAll names).2 := by
  induction names generalizing q asked with
  | nil => rwa [List.append_nil]
  | cons name rest ih =>
    rw [← List.singleton_append, ← List.append_assoc]
    exact ih (h.metadataFor name).2

end Recalls

/-- If the names asked for so far were answered as by searches, so is a further one exactly if it finds what
they found. -/
theorem answerAfter_eq_iff (hasked : asked.Pairwise p.Finds) (name : String) :
    p.answerAfter asked name = p.findProperty name ↔ ∀ earlier ∈ asked, p.Finds earlier name := by
  have htook {earlier : String} {property : Property} (hsame : lowercase earlier = lowercase name) :
      (if lowercase earlier = lowercase name then (p.findProperty earlier).toOption else none) = some property ↔
        p.findProperty earlier = .ok property := by
    rw [if_pos hsame]
    cases p.findProperty earlier <;> simp [Except.toOption]
  rw [answerAfter]
  cases hrecalled : p.recalled? asked name with
  | none =>
    refine iff_of_true rfl fun earlier hearlier hsame property hfound => ?_
    have hnone := List.findSome?_eq_none_iff.mp hrecalled earlier hearlier
    rw [(htook hsame).mpr hfound] at hnone
    cases hnone
  | some property =>
    obtain ⟨before, first, later, rfl, hfirst, hbefore⟩ := List.findSome?_eq_some_iff.mp hrecalled
    have hsame : lowercase first = lowercase name := by
      by_contra hother
      rw [if_neg hother] at hfirst
      cases hfirst
    have hfound := (htook hsame).mp hfirst
    refine ⟨fun hname earlier hearlier hsame' other hother => ?_, fun hfinds => ?_⟩
    · -- all names of this lower case that found something found what the first one found
      suffices heq : other = property by rw [heq]; exact hname.symm
      rcases List.mem_append.mp hearlier with hmem | hmem
      · have hnone := hbefore earlier hmem
        rw [(htook hsame').mpr hother] at hnone
        cases hnone
      · rcases List.mem_cons.mp hmem with rfl | hmem
        · rw [hfound] at hother
          exact (Except.ok.inj hother).symm
        · have hlater := List.rel_of_pairwise_cons (List.pairwise_append.mp hasked).2.1 hmem
          rw [hlater (hsame.trans hsame'.symm) property hfound] at hother
          exact (Except.ok.inj hother).symm
    · exact (hfinds first (List.mem_append_right _ List.mem_cons_self) hsame property hfound).symm

/-- Names are answered as by searches exactly if each one finds what the names of its lower case before it
found. -/
theorem Recalls.askAll_eq_iff (h : p.Recalls asked q) (hasked : asked.Pairwise p.Finds) (names : List String) :
    (q.askAll names).1 = names.map p.findProperty ↔ (asked ++ names).Pairwise p.Finds := by
  induction names generalizing q asked with
  | nil => exact iff_of_true rfl (by rwa [List.append_nil])
  | cons name rest ih =>
    obtain ⟨hfirst, hlater⟩ := h.metadataFor name
    have hanswers : (q.askAll (name :: rest)).1 =
        p.answerAfter asked name :: ((q.metadataFor name).2.askAll rest).1 := congrArg (· :: _) hfirst
    rw [hanswers, List.map_cons, List.cons.injEq, answerAfter_eq_iff hasked]
    by_cases hfinds : ∀ earlier ∈ asked, p.Finds earlier name
    · have hconcat : (asked ++ [name]).Pairwise p.Finds :=
        List.pairwise_append.mpr ⟨hasked, List.pairwise_singleton _ _, by simpa using hfinds⟩
      rw [and_iff_right hfinds, ih hlater hconcat, List.append_assoc, List.singleton_append]
    · refine iff_of_false (fun hboth => hfinds hboth.1) fun hpairs => hfinds fun earlier hearlier => ?_
      exact (List.pairwise_append.mp hpairs).2.2 earlier hearlier name List.mem_cons_self

/-! ## Built pipelines -/

/-- A pipeline that has just been built remembers nothing. -/
theorem recalls_of_build {settings : PipelineSettings} {stages : List (Stage υ)}
    (hbuild : build settings stages = .ok p) : p.Recalls [] p := by
  obtain ⟨-, checked, -, -, rfl⟩ := build_eq_ok_iff.mp hbuild
  exact ⟨rfl, fun _ => rfl⟩

/-- After any names a built pipeline answers a name with the property that was found first under its lower
case, if there is one, and else as by a search. So names are answered as they would be first exactly if each
one finds what the names of its lower case before it found, as they do if they differ in ASCII letters
only. -/
theorem askAll_eq_first_iff {settings : PipelineSettings} {stages : List (Stage υ)}
    (hbuild : build settings stages = .ok p) (names : List String) :
    (∀ name, ((p.askAll names).2.metadataFor name).1 = p.answerAfter names name) ∧
      ((p.askAll names).1 = names.map (fun name => (p.metadataFor name).1) ↔ names.Pairwise p.Finds) ∧
      ((names.Pairwise fun name other =>
          lowercase name = lowercase other → eqUpToAsciiCase name other = true) →
        (p.askAll names).1 = names.map fun name => (p.metadataFor name).1) := by
  have hnew := recalls_of_build hbuild
  have hfirst : (fun name => (p.metadataFor name).1) = p.findProperty :=
    funext fun name => (hnew.metadataFor name).1
  have hiff := hnew.askAll_eq_iff List.Pairwise.nil names
  rw [List.nil_append] at hiff
  rw [hfirst]
  exact ⟨fun name => ((hnew.askAll names).metadataFor name).1, hiff,
    fun hascii => hiff.mpr (hascii.imp p.finds_of_eqUpToAsciiCase)⟩

/-- Two stages whose properties have names of one lower case, told apart by the accented letter alone. -/
def accents : List (Stage Unit) :=
  [.single { number := 0, key := "a", filter := .all, properties := [⟨"É", "a", true⟩], process := pure () },
    .single { number := 1, key := "b", filter := .all, properties := [⟨"é", "b", true⟩], process := pure () }]

/-- A name that was asked for is recalled for its spelling with the other accented letter, and names that
differ in the case of ASCII letters only are answered as if asked for alone. -/
theorem askAll_eq_first_iff_of_accents :
    ∃ p, build {} accents = .ok p ∧
      ((p.askAll ["É", "none"]).2.metadataFor "é").1 = p.answerAfter ["É", "none"] "é" ∧
      (p.askAll ["É", "none", "NONE"]).1 = ["É", "none", "NONE"].map fun name => (p.metadataFor name).1 := by
  have hbuild : build {} accents = .ok { stages := accents } := rfl
  refine ⟨_, hbuild, (askAll_eq_first_iff hbuild ["É", "none"]).1 "é", ?_⟩
  exact (askAll_eq_first_iff hbuild ["É", "none", "NONE"]).2.2 (by decide +kernel)

/-- Once the property of one name has been found, the other name is answered with it. -/
theorem askAll_ne_first_of_accents :
    ∃ p, build {} accents = .ok p ∧
      (p.askAll ["É", "é"]).1 ≠ ["É", "é"].map fun name => (p.metadataFor name).1 := by
  refine ⟨{ stages := accents }, rfl, fun heq => ?_⟩
  have hfound := congrArg (List.map Except.toOption) heq
  revert hfound
  decide +kernel

end EvidenceFlow.Pipeline
