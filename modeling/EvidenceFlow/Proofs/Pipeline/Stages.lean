import EvidenceFlow.Pipeline
import EvidenceFlow.Proofs.Pipeline.Acts

/-!
# How a pipeline runs

A pipeline begins to process the flow, runs its stages one after the other and reports. Beside its
elements it looks at the flow only, and changes nothing of it but what it records.
-/

namespace EvidenceFlow

variable {υ : Type}

/-- Incidents are recorded behind those that are there. -/
theorem Flow.addIncidents_eq (incidents : List Incident) (flow : Flow) :
    incidents.foldl Flow.addIncident flow = { flow with incidents := flow.incidents ++ incidents } := by
  induction incidents generalizing flow with
  | nil => rw [List.append_nil, List.foldl_nil]
  | cons incident rest ih => rw [List.foldl_cons, ih, addIncident, List.append_assoc, List.singleton_append]

namespace Pipeline

/-- What is recorded of a stage and how it ends, by how its elements ended. -/
def conclude (ended : List (Except Halt Unit)) (faults : List Incident) : Act υ Unit :=
  match ended.findSome? panicOf? with
  | some message => throw (.panic message)
  | none => do
    let (fatal, recorded) := faults.partition fun incident => incident.fault.isFatal
    Act.onFlow fun flow => ((), recorded.foldl Flow.addIncident flow)
    match fatal with
    | [] => return
    | incident :: _ => Act.fail incident.fault

/-- A stage runs its elements and is then concluded. -/
theorem runStage_eq (elements : List (Element υ)) :
    runStage elements =
      modifyGet (runAll elements) >>= fun ended => conclude ended (faultsOf elements ended) := rfl

/-- Stages are run one after the other until the flow has been stopped. -/
theorem runStages_cons (stage : Stage υ) (rest : List (Stage υ)) :
    runStages (stage :: rest) =
      runStage stage.elements >>= fun _ => get >>= fun scene =>
        if scene.flow.stopped then pure () else runStages rest := rfl

/-- After a stage the run goes on unless the flow has been stopped. -/
theorem goOn_does {rest : List (Stage υ)} {kept : Shared υ → Prop} {flow after : Flow}
    {ended : Except Halt Unit}
    (h : (if flow.stopped then pure () else runStages rest : Act υ Unit).Does kept flow ended after) :
    (get >>= fun scene => if scene.flow.stopped then pure () else runStages rest :
      Act υ Unit).Does kept flow ended after :=
  .get_bind (k := fun flow => if flow.stopped then pure () else runStages rest) h

/-- Elements are run one after the other. -/
theorem runAll_cons (element : Element υ) (rest : List (Element υ)) (scene : Scene υ) :
    runAll (element :: rest) scene =
      let first := element.process.runOn scene
      (first.1 :: (runAll rest first.2).1, (runAll rest first.2).2) := rfl

/-- What the run of a pipeline ends with once its stages have been run. -/
def report (settings : PipelineSettings) (flow : Flow) : Act υ Unit :=
  if !flow.incidents.isEmpty && !settings.suppressIncidents then
    Act.fail (.aggregate flow.incidents)
  else pure ()

/-- A pipeline runs its stages and reports. -/
theorem run_eq (p : Pipeline υ) :
    p.run = runStages p.stages >>= fun _ => get >>= fun scene => report p.settings scene.flow := rfl

/-- A pipeline that is not closed begins to process a flow and runs. -/
theorem process_eq (p : Pipeline υ) :
    p.process = Act.tryFlow Flow.begin >>= fun _ =>
      if p.closed then Act.fail .closed else p.run := rfl

/-- To report is to look at the flow only. -/
theorem report_does (settings : PipelineSettings) (flow : Flow) :
    ∃ ended, ∀ kept : Shared υ → Prop, (report settings flow).Does kept flow ended flow := by
  unfold report
  split
  · exact ⟨_, fun kept => .of_runOn fun shared => Act.runOn_fail _ _⟩
  · exact ⟨_, fun kept => .of_runOn fun shared => Act.runOn_pure _ _⟩

/-- Incidents leave the data alone. -/
theorem datum?_addIncidents (incidents : List Incident) (flow : Flow) (key : String) :
    (incidents.foldl Flow.addIncident flow).datum? key = flow.datum? key := by
  rw [Flow.addIncidents_eq]
  rfl

/-- To conclude a stage is to look at the flow only, and leaves the data alone. -/
theorem conclude_does (ended : List (Except Halt Unit)) (faults : List Incident) (flow : Flow) :
    ∃ concluded after, (∀ kept : Shared υ → Prop,
        (conclude ended faults).Does kept flow concluded after) ∧
      ∀ key, after.datum? key = flow.datum? key := by
  unfold conclude
  cases ended.findSome? panicOf? with
  | some message =>
    exact ⟨_, flow, fun kept => .of_runOn fun shared => Act.runOn_throw _ _, fun key => rfl⟩
  | none =>
    simp only
    cases (faults.partition fun incident => incident.fault.isFatal).1 with
    | nil =>
      exact ⟨_, _, fun kept => .of_runOn fun shared => rfl, fun key => datum?_addIncidents _ _ _⟩
    | cons incident rest =>
      exact ⟨_, _, fun kept => .of_runOn fun shared => rfl, fun key => datum?_addIncidents _ _ _⟩

/-! ## Runs without incidents -/

/-- An element that succeeds is followed by the stages behind it, unless the flow has been stopped. -/
theorem runOn_runStages_single {x : Element υ} {rest : List (Stage υ)} {scene after : Scene υ}
    (hrun : x.process.runOn scene = (.ok (), after)) (hgo : after.flow.stopped = false) :
    (runStages (.single x :: rest)).runOn scene = (runStages rest).runOn after := by
  have hstage : (runStage [x]).runOn scene = (.ok (), after) := by
    rw [runStage_eq, Act.runOn_bind, Act.runOn_modifyGet, runAll_cons, hrun]
    rfl
  rw [runStages_cons, Act.runOn_bind]
  simp only [Stage.elements]
  rw [hstage]
  simp only
  rw [Act.runOn_bind, Act.runOn_get]
  simp only [hgo]
  rfl

/-- An open pipeline succeeds on a new flow if its stages do and nothing is recorded. -/
theorem runOn_process_of_stages {p : Pipeline υ} {scene after : Scene υ} (hopen : p.closed = false)
    (hnew : scene.flow.processed = false)
    (hstages : (runStages p.stages).runOn
      { scene with flow := { scene.flow with processed := true } } = (.ok (), after))
    (hquiet : after.flow.incidents = []) : p.process.runOn scene = (.ok (), after) := by
  have hbegin : scene.flow.begin = .ok { scene.flow with processed := true } := by
    rw [Flow.begin, hnew]
    rfl
  rw [process_eq, Act.runOn_bind, Act.runOn_tryFlow, hbegin]
  simp only [hopen, Bool.false_eq_true, if_false]
  rw [run_eq, Act.runOn_bind, hstages]
  simp only
  rw [Act.runOn_bind, Act.runOn_get]
  simp only [report, hquiet]
  rfl

/-! ## What a run preserves -/

variable {inv : Scene υ → Prop}

/-- Elements that preserve what holds of a scene do so one after the other. -/
theorem preserves_runAll {elements : List (Element υ)}
    (h : ∀ x ∈ elements, x.process.Preserves inv) :
    (modifyGet (runAll elements) : Act υ (List (Except Halt Unit))).Preserves inv := by
  induction elements with
  | nil => exact fun _ hscene => hscene
  | cons x rest ih =>
    intro scene hscene
    have hfirst := h x (by simp) scene hscene
    exact ih (fun y hy => h y (List.mem_cons_of_mem _ hy)) _ hfirst

/-- To conclude a stage preserves what the records of incidents leave alone. -/
theorem preserves_conclude
    (hincident : ∀ scene incident, inv scene →
      inv { scene with flow := scene.flow.addIncident incident })
    (ended : List (Except Halt Unit)) (faults : List Incident) :
    (conclude ended faults : Act υ Unit).Preserves inv := by
  have hrecord : ∀ (incidents : List Incident) scene, inv scene →
      inv { scene with flow := incidents.foldl Flow.addIncident scene.flow } := by
    intro incidents
    induction incidents with
    | nil => exact fun _ h => h
    | cons incident rest ih => exact fun scene h => ih _ (hincident scene incident h)
  unfold conclude
  cases ended.findSome? panicOf? with
  | some message => exact .throw _
  | none =>
    refine .bind (fun scene h => hrecord _ scene h) fun _ => ?_
    split
    · exact .pure _
    · exact .fail _

/-- A pipeline preserves what its elements preserve, if neither the mark of processing nor the records
of incidents matter. -/
theorem preserves_process {p : Pipeline υ} (helements : ∀ x ∈ p.elements, x.process.Preserves inv)
    (hbegin : ∀ scene, inv scene → inv { scene with flow := { scene.flow with processed := true } })
    (hincident : ∀ scene incident, inv scene →
      inv { scene with flow := scene.flow.addIncident incident }) :
    p.process.Preserves inv := by
  have hstages : ∀ stages : List (Stage υ), (∀ x ∈ elementsOf stages, x.process.Preserves inv) →
      (runStages stages).Preserves inv := by
    intro stages
    induction stages with
    | nil => exact fun _ => .pure _
    | cons stage rest ih =>
      intro h
      rw [runStages_cons, runStage_eq]
      refine .bind (.bind ?_ fun ended => preserves_conclude hincident _ _) fun _ =>
        .bind .get fun scene => ?_
      · exact preserves_runAll fun x hx => h x (List.mem_append_left _ hx)
      · split
        · exact .pure _
        · exact ih fun x hx => h x (List.mem_append_right _ hx)
  rw [process_eq]
  refine .bind ?_ fun _ => ?_
  · intro scene h
    rw [Act.runOn_tryFlow]
    cases hdone : scene.flow.processed with
    | true =>
      rw [Flow.begin, if_pos hdone]
      exact h
    | false =>
      rw [Flow.begin, hdone]
      exact hbegin scene h
  · split
    · exact .fail _
    · rw [run_eq]
      refine .bind (hstages _ helements) fun _ => .bind .get fun scene => ?_
      unfold report
      split
      · exact .fail _
      · exact .pure _

end Pipeline

end EvidenceFlow
