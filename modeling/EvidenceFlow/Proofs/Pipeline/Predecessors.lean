import EvidenceFlow.Proofs.Engine.Transparency
import EvidenceFlow.Proofs.Pipeline.Passages

/-!
# Predecessors run first

A pipeline is built only if every key that an element requires is the key of an element of a stage before.
As the elements of a stage are all called before the run goes on, and none of them is broken off then, an
element of each required key has been called and has come to its end whenever an element is called.
-/

namespace EvidenceFlow.Pipeline

variable {υ : Type}

/-- No predecessor is missing if those of the first stage are there, and none is missing behind it. -/
theorem firstMissing_cons_eq_none_iff {seen : List String} {stage : Stage υ} {rest : List (Stage υ)} :
    firstMissing seen (stage :: rest) = none ↔
      (∀ x ∈ stage.elements, ∀ key ∈ x.requires, key ∈ seen) ∧
        firstMissing (seen ++ stage.elements.map (·.key)) rest = none := by
  rw [firstMissing, Option.or_eq_none_iff, List.findSome?_eq_none_iff]
  simp only [missingOf, Option.map_eq_none_iff, List.find?_eq_none, Bool.not_eq_true', Bool.not_eq_false,
    List.contains_iff_mem]

/-- The elements that a first stage calls require nothing but what is there. -/
theorem Passage.From.requires {passage : Passage υ} {scene : Scene υ} (h : passage.From scene)
    {seen : List String} {rest : List (Stage υ)}
    (hmissing : firstMissing seen (passage.stage :: rest) = none) {turn : Turn υ}
    (hturn : turn ∈ passage.turns) {key : String} (hkey : key ∈ turn.1.requires) : key ∈ seen :=
  (firstMissing_cons_eq_none_iff.mp hmissing).1 turn.1 (h.mem_elements hturn) key hkey

/-- An element of the key has been called in one of the passages, and was not broken off. -/
def HasReturned (passages : List (Passage υ)) (key : String) : Prop :=
  ∃ earlier ∈ passages, ∃ past ∈ earlier.turns,
    past.1.key = key ∧ ∀ message, past.2 ≠ .error (.panic message)

namespace Passes

variable {stages : List (Stage υ)} {scene : Scene υ} {passages : List (Passage υ)}
  {result : Except Halt Unit × Scene υ}

/-- A run passes the first stages, in order. -/
theorem stages_prefix (h : Passes stages scene passages result) :
    passages.map (·.stage) <+: stages := by
  induction h with
  | done => exact List.prefix_rfl
  | next hstage _ _ _ ih => exact List.cons_prefix_cons.mpr ⟨hstage, ih⟩
  | last hstage => exact List.cons_prefix_cons.mpr ⟨hstage, List.nil_prefix⟩

/-- What an element requires is there when the run begins, or an element of the key has returned in a
passage before. -/
theorem requires (h : Passes stages scene passages result) {seen : List String}
    (hmissing : firstMissing seen stages = none) {before later : List (Passage υ)} {passage : Passage υ}
    (hsplit : passages = before ++ passage :: later) {turn : Turn υ} (hturn : turn ∈ passage.turns)
    {key : String} (hkey : key ∈ turn.1.requires) : key ∈ seen ∨ HasReturned before key := by
  induction h generalizing seen before with
  | done => simp at hsplit
  | @next first _ _ _ _ _ hstage hfrom hgo _ ih =>
    subst hstage
    cases before with
    | nil =>
      obtain ⟨rfl, -⟩ := List.cons.inj hsplit
      exact .inl (hfrom.requires hmissing hturn hkey)
    | cons _ before =>
      obtain ⟨rfl, hrest⟩ := List.cons.inj hsplit
      obtain hseen | ⟨earlier, hearlier, hpast⟩ :=
        ih (firstMissing_cons_eq_none_iff.mp hmissing).2 hrest
      · rcases List.mem_append.mp hseen with hseen | hstage
        · exact .inl hseen
        · -- the run went on behind the first stage, so none of its elements was broken off
          obtain ⟨x, hx, rfl⟩ := List.mem_map.mp hstage
          obtain ⟨past, hpast, rfl⟩ := hfrom.exists_turn_of_mem hx
          exact .inr ⟨first, List.mem_cons_self, past, hpast, rfl, hfrom.ne_panic hgo hpast⟩
      · exact .inr ⟨earlier, List.mem_cons_of_mem _ hearlier, hpast⟩
  | last hstage hfrom =>
    subst hstage
    obtain ⟨rfl, hone⟩ | ⟨-, hnone⟩ := List.append_eq_singleton_iff.mp hsplit.symm
    · obtain ⟨rfl, -⟩ := List.cons.inj hone
      exact .inl (hfrom.requires hmissing hturn hkey)
    · cases hnone

end Passes

/-- Whenever a built pipeline calls an element, an element of each key that it requires has been called in
an earlier stage of the run and has returned. -/
theorem hasReturned_requires {settings : PipelineSettings} {stages : List (Stage υ)} {built p : Pipeline υ}
    (hbuild : build settings stages = .ok built) (hstages : p.stages = built.stages) (scene : Scene υ) :
    (∃ passages, p.Processes scene passages (p.process.runOn scene)) ∧
      ∀ passages result, p.Processes scene passages result →
        passages.map (·.stage) <+: p.stages ∧
          ∀ before passage later, passages = before ++ passage :: later →
            ∀ turn ∈ passage.turns, ∀ key ∈ turn.1.requires, HasReturned before key := by
  refine ⟨exists_processes p scene, fun passages result h => ?_⟩
  obtain ⟨-, checked, -, hmissing, rfl⟩ := build_eq_ok_iff.mp hbuild
  by_cases hsome : passages = []
  · subst hsome
    exact ⟨List.nil_prefix, by simp⟩
  · obtain ⟨ran, -, hpasses⟩ := h.passes_of_ne_nil hsome
    refine ⟨hpasses.stages_prefix, fun before passage later hsplit turn hturn key hkey => ?_⟩
    rw [hstages] at hpasses
    exact (hpasses.requires hmissing hsplit hturn hkey).resolve_left List.not_mem_nil

/-- The element in the middle fails beside one that does not, and the last one needs both. -/
def awaiting : List (Stage (List String)) :=
  let needing (x : Element (List String)) (keys : List String) := { x with requires := keys }
  [.single (told "first" (.ok ())),
    .parallel
      [needing (told "left" (.ok ())) ["first"],
        needing (told "right" (.error (.element "right" "lost"))) ["first"]],
    .parallel [needing (told "last" (.ok ())) ["right", "first"]]]

/-- The last element is called after the one that failed, although the flow has that incident. -/
theorem hasReturned_requires_of_awaiting :
    ∃ built, build { suppressIncidents := true } awaiting = .ok built ∧
      ∃ first group last : Passage (List String),
        built.Processes untouched [first, group, last] (built.process.runOn untouched) ∧
          HasReturned [first, group] "right" := by
  refine ⟨_, rfl, ?_⟩
  set built : Pipeline (List String) := _
  have hbuild : build { suppressIncidents := true } awaiting = .ok built := rfl
  let one := Passage.declared built.stages[0] (begun untouched)
  let two := Passage.declared built.stages[1] one.concluded.2
  let three := Passage.declared built.stages[2] two.concluded.2
  have hreport : built.process.runOn untouched = reported built.settings three.concluded := rfl
  have hrun : built.Processes untouched [one, two, three] (built.process.runOn untouched) := by
    rw [hreport]
    refine .ran rfl rfl ?_
    exact .next rfl (Passage.declared_from _ _) (not_final_iff.mpr ⟨rfl, rfl⟩) <|
      .next rfl (Passage.declared_from _ _) (not_final_iff.mpr ⟨rfl, rfl⟩) <|
        .next rfl (Passage.declared_from _ _) (not_final_iff.mpr ⟨rfl, rfl⟩) .done
  obtain ⟨-, hreturned⟩ := (hasReturned_requires hbuild rfl untouched).2 _ _ hrun
  exact ⟨one, two, three, hrun,
    hreturned [one, two] three [] rfl _ List.mem_cons_self "right" List.mem_cons_self⟩

end EvidenceFlow.Pipeline
