import EvidenceFlow.Proofs.Fingerprint.Admitted
import EvidenceFlow.Proofs.Pipeline.Stages

/-!
# Runs on what is asked for

A pipeline asks for the evidence that some element declares. Who runs it may supply only the evidence that a
filter admits. If no element misses the rest, the run ends in the same way then and leaves the same, but for
the evidence of the flow: the pipeline does not look at evidence itself.
-/

namespace EvidenceFlow

variable {υ α β : Type}

/-- The scene if only evidence had been supplied that a filter admits. -/
def Scene.only (admitted : Filter) (scene : Scene υ) : Scene υ :=
  { scene with flow := { scene.flow with evidence := scene.flow.evidence.only admitted } }

/-- As long as something holds of the scene, which the act preserves, the act does not miss the evidence that a
filter does not admit. -/
structure Act.Heeds (act : Act υ α) (admitted : Filter) (inv : Scene υ → Prop) : Prop where
  /-- What holds of the scene goes on to hold. -/
  keeps : act.Preserves inv
  /-- The act ends in the same way and leaves the same. -/
  same : ∀ scene, inv scene →
    act.runOn (scene.only admitted) = ((act.runOn scene).1, (act.runOn scene).2.only admitted)

namespace Act.Heeds

variable {admitted : Filter} {inv : Scene υ → Prop}

/-- To end with a result misses nothing. -/
theorem pure (x : α) : (pure x : Act υ α).Heeds admitted inv := ⟨.pure x, fun _ _ => rfl⟩

/-- To end with a fault misses nothing. -/
theorem fail (fault : Fault) : (fail fault : Act υ α).Heeds admitted inv := ⟨.fail fault, fun _ _ => rfl⟩

/-- Acts that miss nothing do so one after the other. -/
theorem bind {act : Act υ α} {next : α → Act υ β} (hact : act.Heeds admitted inv)
    (hnext : ∀ x, (next x).Heeds admitted inv) : (act >>= next).Heeds admitted inv := by
  refine ⟨.bind hact.keeps fun x => (hnext x).keeps, fun scene hscene => ?_⟩
  have hafter := hact.keeps scene hscene
  rw [runOn_bind, runOn_bind, hact.same scene hscene]
  rcases hrun : act.runOn scene with ⟨ended, after⟩
  rw [hrun] at hafter
  cases ended with
  | ok x => exact (hnext x).same after hafter
  | error halt => rfl

/-- What follows may be chosen by a look at the scene that passes by the evidence. -/
theorem get_bind {k : Scene υ → Act υ α} (hlook : ∀ scene, k (scene.only admitted) = k scene)
    (hnext : ∀ scene, (k scene).Heeds admitted inv) : (get >>= k).Heeds admitted inv := by
  refine ⟨.bind .get fun scene => (hnext scene).keeps, fun scene hscene => ?_⟩
  rw [runOn_bind, runOn_bind, runOn_get, runOn_get]
  dsimp only
  rw [hlook]
  exact (hnext scene).same scene hscene

end Act.Heeds

namespace Pipeline

/-! ## What is asked for -/

/-- Some of the filters includes a key if some element declares it. -/
theorem anyIncludes_map (elements : List (Element υ)) (key : String) :
    Filter.anyIncludes (elements.map (·.filter)) key =
      elements.any fun element => element.filter.includes key := by
  induction elements with
  | nil => rfl
  | cons element rest ih => rw [List.map_cons, Filter.anyIncludes, List.any_cons, ih]

/-- A pipeline asks for what some element declares. -/
theorem includes_filter (p : Pipeline υ) (key : String) :
    p.filter.includes key = p.elements.any fun element => element.filter.includes key := by
  have hunion (union : Filter.Union) (elements : List (Element υ)) :
      elements.foldl (fun union element => union.addFilter element.filter) union =
        { union with others := union.others ++ elements.map (·.filter) } := by
    induction elements generalizing union with
    | nil => rw [List.map_nil, List.append_nil, List.foldl_nil]
    | cons element rest ih =>
      rw [List.foldl_cons, ih, Filter.Union.addFilter, List.append_assoc]
      rfl
  rw [filter, hunion, Filter.Union.toFilter, Filter.includes, List.nil_append, anyIncludes_map]
  rfl

/-- A pipeline asks for what an element of it declares. -/
theorem includes_filter_of_mem {p : Pipeline υ} {element : Element υ} (h : element ∈ p.elements) {key : String}
    (hkey : element.filter.includes key = true) : p.filter.includes key = true := by
  rw [includes_filter, List.any_eq_true]
  exact ⟨element, h, hkey⟩

/-! ## Runs -/

variable {admitted : Filter} {inv : Scene υ → Prop}

/-- Elements that miss nothing do so one after the other. -/
theorem heeds_runAll {elements : List (Element υ)} (h : ∀ x ∈ elements, x.process.Heeds admitted inv) :
    (modifyGet (runAll elements) : Act υ (List (Except Halt Unit))).Heeds admitted inv := by
  refine ⟨preserves_runAll fun x hx => (h x hx).keeps, ?_⟩
  have hall (scene : Scene υ) (hscene : inv scene) :
      runAll elements (scene.only admitted) =
        ((runAll elements scene).1, (runAll elements scene).2.only admitted) := by
    induction elements generalizing scene with
    | nil => rfl
    | cons x rest ih =>
      rw [List.forall_mem_cons] at h
      rw [runAll_cons, runAll_cons, h.1.same scene hscene]
      dsimp only
      rw [ih h.2 _ (h.1.keeps scene hscene)]
  intro scene hscene
  rw [Act.runOn_modifyGet, Act.runOn_modifyGet, hall scene hscene]

variable (hbegin : ∀ scene, inv scene → inv { scene with flow := { scene.flow with processed := true } })
  (hincident : ∀ scene incident, inv scene → inv { scene with flow := scene.flow.addIncident incident })

include hbegin in
/-- To begin is to pass by the evidence. -/
theorem heeds_begin : (Act.tryFlow Flow.begin : Act υ Unit).Heeds admitted inv := by
  refine ⟨fun scene hscene => ?_, fun scene _ => ?_⟩
  · rw [Act.runOn_tryFlow]
    cases hdone : scene.flow.processed with
    | true =>
      rw [Flow.begin, if_pos hdone]
      exact hscene
    | false =>
      rw [Flow.begin, hdone]
      exact hbegin scene hscene
  · have hdone : (scene.only admitted).flow.processed = scene.flow.processed := rfl
    rw [Act.runOn_tryFlow, Act.runOn_tryFlow, Flow.begin, Flow.begin, hdone]
    cases scene.flow.processed <;> rfl

include hincident

/-- To conclude a stage is to pass by the evidence. -/
theorem heeds_conclude (ended : List (Except Halt Unit)) (faults : List Incident) :
    (conclude ended faults : Act υ Unit).Heeds admitted inv := by
  refine ⟨preserves_conclude hincident ended faults, fun scene _ => ?_⟩
  unfold conclude
  cases ended.findSome? panicOf? with
  | some message => rfl
  | none =>
    simp only [Flow.addIncidents_eq]
    cases (faults.partition fun incident => incident.fault.isFatal).1 <;> rfl

/-- Stages of elements that miss nothing miss nothing. -/
theorem heeds_runStages {stages : List (Stage υ)}
    (h : ∀ x ∈ elementsOf stages, x.process.Heeds admitted inv) : (runStages stages).Heeds admitted inv := by
  induction stages with
  | nil => exact .pure ()
  | cons stage rest ih =>
    rw [elementsOf, List.flatMap_cons, List.forall_mem_append] at h
    rw [runStages_cons, runStage_eq]
    refine .bind (.bind (heeds_runAll h.1) fun ended => heeds_conclude hincident _ _) fun _ => ?_
    refine .get_bind (fun _ => rfl) fun scene => ?_
    split
    · exact .pure ()
    · exact ih h.2

include hbegin

/-- A pipeline of elements that miss nothing misses nothing. -/
theorem heeds_process {p : Pipeline υ} (h : ∀ x ∈ p.elements, x.process.Heeds admitted inv) :
    p.process.Heeds admitted inv := by
  rw [process_eq]
  refine .bind (heeds_begin hbegin) fun _ => ?_
  split
  · exact .fail _
  · rw [run_eq]
    refine .bind (heeds_runStages hincident h) fun _ => .get_bind (fun _ => rfl) fun scene => ?_
    unfold report
    split
    · exact .fail _
    · exact .pure ()

end Pipeline

end EvidenceFlow
