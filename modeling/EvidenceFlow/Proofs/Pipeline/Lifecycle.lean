import EvidenceFlow.Proofs.Pipeline.Passages

/-!
# The life of a flow

A flow is filled with evidence, processed once, and then read. When it is processed it is marked first, before it
is looked at whether its pipeline takes any work. So a flow that a closed pipeline has turned away counts as
processed from then on: it takes no evidence, is not processed again, and is read as if its elements had left
nothing, although no stage has been started for it. That is the only way in which the mark and the start of the
stages come apart.
-/

namespace EvidenceFlow

open Pipeline

variable {υ : Type}

/-! ## How runs end -/

/-- The element does not take the mark of processing back. -/
def Element.KeepsProcessed (x : Element υ) : Prop :=
  x.process.Preserves fun scene => scene.flow.processed = true

namespace Pipeline

/-- A stage is concluded with a fault only if it is one in settings. -/
theorem isFatal_of_conclude {ended : List (Except Halt Unit)} {faults : List Incident} {scene : Scene υ}
    {fault : Fault} (h : ((conclude ended faults).runOn scene).1 = .error (.fault fault)) :
    fault.isFatal = true := by
  rw [conclude] at h
  cases hbroken : ended.findSome? panicOf? with
  | some message =>
    rw [hbroken] at h
    cases h
  | none =>
    simp only [hbroken, List.partition_eq_filter_filter] at h
    cases hfatal : faults.filter fun incident => incident.fault.isFatal with
    | nil =>
      rw [hfatal] at h
      cases h
    | cons incident rest =>
      rw [hfatal] at h
      cases h
      have hfirst : incident ∈ faults.filter fun incident => incident.fault.isFatal :=
        hfatal ▸ List.mem_cons_self
      exact (List.mem_filter.mp hfirst).2

/-- What the elements of a stage and the records of incidents preserve holds after the stage if it did before. -/
theorem Passage.From.holds {passage : Passage υ} {scene : Scene υ} {inv : Scene υ → Prop}
    (h : passage.From scene) (hkept : ∀ x ∈ passage.stage.elements, x.process.Preserves inv)
    (hrecorded : ∀ scene incident, inv scene → inv { scene with flow := scene.flow.addIncident incident })
    (hbefore : inv scene) : inv passage.concluded.2 := by
  have hleft : inv passage.left :=
    h.calls.holds (fun turn hturn => hkept turn.1 (h.mem_elements hturn)) hbefore
  exact preserves_conclude hrecorded _ _ _ hleft

namespace Passes

variable {stages : List (Stage υ)} {start : Scene υ} {passages : List (Passage υ)}
  {result : Except Halt Unit × Scene υ}

/-- Stages end with a fault only if it is one in settings. -/
theorem isFatal (h : Passes stages start passages result) {fault : Fault}
    (hfailed : result.1 = .error (.fault fault)) : fault.isFatal = true := by
  induction h with
  | done => cases hfailed
  | next _ _ _ _ ih => exact ih hfailed
  | last _ _ _ => exact isFatal_of_conclude hfailed

/-- What the elements and the records of incidents preserve holds after the stages if it did before. -/
theorem holds {inv : Scene υ → Prop} (h : Passes stages start passages result)
    (hkept : ∀ x ∈ elementsOf stages, x.process.Preserves inv)
    (hrecorded : ∀ scene incident, inv scene → inv { scene with flow := scene.flow.addIncident incident })
    (hbefore : inv start) : inv result.2 := by
  induction h with
  | done => exact hbefore
  | next hstage hfrom _ _ ih =>
    subst hstage
    refine ih (fun x hx => hkept x (List.mem_append_right _ hx)) (hfrom.holds (fun x hx => ?_) hrecorded hbefore)
    exact hkept x (List.mem_append_left _ hx)
  | last hstage hfrom _ =>
    subst hstage
    exact hfrom.holds (fun x hx => hkept x (List.mem_append_left _ hx)) hrecorded hbefore

end Passes

/-- What a run reports leaves the scene as the stages did. -/
theorem reported_snd (settings : PipelineSettings) (ran : Except Halt Unit × Scene υ) :
    (reported settings ran).2 = ran.2 := by
  rcases ran with ⟨halt | _, after⟩
  · rfl
  · rw [reported, runOn_report]

/-- A run ends with a fault in settings or with all incidents of the flow, if it ends with a fault. -/
theorem reported_fault {settings : PipelineSettings} {ran : Except Halt Unit × Scene υ} {fault : Fault}
    (h : (reported settings ran).1 = .error (.fault fault)) :
    ran.1 = .error (.fault fault) ∨ fault = .aggregate ran.2.flow.incidents := by
  rcases ran with ⟨halt | _, after⟩
  · exact .inl h
  · right
    rw [reported, runOn_report, endOf, Option.none_or] at h
    split at h
    · cases h
      rfl
    · cases h

/-- The run of a pipeline does not end with a fault by which a flow is turned away. -/
theorem reported_ne_refused {stages : List (Stage υ)} {start : Scene υ} {passages : List (Passage υ)}
    {ran : Except Halt Unit × Scene υ} (hpasses : Passes stages start passages ran)
    (settings : PipelineSettings) :
    (reported settings ran).1 ≠ .error (.fault .closed) ∧
      (reported settings ran).1 ≠ .error (.fault .alreadyProcessed) := by
  constructor <;>
  · intro hrefused
    obtain hfailed | haggregate := reported_fault hrefused
    · cases hpasses.isFatal hfailed
    · cases haggregate

/-- The elements of a pipeline that is closed stay the same. -/
theorem elements_close (p : Pipeline υ) (shared : Shared υ) : (p.close shared).2.1.elements = p.elements := by
  rw [close]
  split
  · rfl
  · dsimp only
    split
    · rfl
    · split <;> rfl

end Pipeline

/-! ## Marks of flows -/

namespace Flow

/-- To begin marks a flow that is not marked. -/
theorem begin_eq_ok_iff {flow after : Flow} :
    flow.begin = .ok after ↔ flow.processed = false ∧ { flow with processed := true } = after := by
  rw [begin]
  cases flow.processed <;> simp

/-- A flow cannot begin if it was processed before, which is what is reported. -/
theorem begin_eq_error_iff {flow : Flow} {fault : Fault} :
    flow.begin = .error fault ↔ flow.processed = true ∧ .alreadyProcessed = fault := by
  rw [begin]
  cases flow.processed <;> simp

/-- A read is refused for want of processing exactly if the flow is not marked. -/
theorem getByName_eq_notProcessed_iff (flow : Flow) (key : String) :
    flow.getByName key = .error .notProcessed ↔ flow.processed = false := by
  rw [getByName]
  cases flow.processed with
  | false => simp
  | true => cases flow.datum? key <;> simp

/-- A read is turned away for want of a run if there was none. -/
theorem get_eq_notProcessed_iff (flow : Flow) (key : String) (kind : Datum.Kind) :
    flow.get key kind = .error .notProcessed ↔ flow.processed = false := by
  rw [← flow.getByName_eq_notProcessed_iff key, get]
  cases flow.getByName key with
  | error fault => exact Iff.rfl
  | ok datum =>
    refine iff_of_false ?_ nofun
    dsimp only [bind, Except.bind]
    split
    · nofun
    · nofun

end Flow

/-- A flow is marked once. -/
theorem Pipeline.begun_of_processed {scene : Scene υ} (hmarked : scene.flow.processed = true) :
    begun scene = scene := by
  obtain ⟨⟨_, _, _, _, _, _, _, _⟩, _⟩ := scene
  obtain rfl : _ = true := hmarked
  rfl

/-! ## Uses of flows -/

/-- A use of a flow or of its pipeline. -/
inductive FlowUse where
  /-- Adds evidence. -/
  | addEvidence (key : String) (value : Json)
  /-- Processes the flow. -/
  | process
  /-- Stops the flow. -/
  | stop
  /-- Closes the pipeline. -/
  | close
  /-- Reads what is under a key. -/
  | read (key : String)
  /-- Reads what is under a key, which must be of the type. -/
  | readAs (key : String) (kind : Datum.Kind)

/-- What a use ends with. -/
inductive FlowAnswer where
  /-- It is done, or why not. -/
  | ended (ended : Except Halt Unit)
  /-- What is there, or why it cannot be read. -/
  | found (datum : Except Fault Datum)

namespace FlowAnswer

/-- The use is refused with this fault. -/
def refused (fault : Fault) : FlowAnswer := ended (.error (.fault fault))

/-- So far as the answer to a use tells, the flow counts as processed, or does not. -/
def Tells (answer : FlowAnswer) (processed : Bool) : FlowUse → Prop
  | .addEvidence _ _ | .process => answer = refused .alreadyProcessed ↔ processed = true
  | .read _ | .readAs _ _ => answer = found (.error .notProcessed) ↔ processed = false
  | .stop | .close => True

end FlowAnswer

/-- A flow with its pipeline. -/
structure Desk (υ : Type) where
  /-- The pipeline. -/
  pipeline : Pipeline υ
  /-- The flow, and what is kept between flows. -/
  scene : Scene υ

namespace Desk

/-- What an act on the flow answers and leaves. -/
def act (d : Desk υ) (act : Act υ Unit) : FlowAnswer × Desk υ :=
  let (ended, scene) := act.runOn d.scene
  (.ended ended, { d with scene })

/-- What a use may answer and leave, whatever the order of the calls in each stage. -/
def Answers (d : Desk υ) : FlowUse → FlowAnswer → Desk υ → Prop
  | .addEvidence key value, answer, after =>
    (answer, after) = d.act (Act.tryFlow fun flow => flow.addEvidence key value)
  | .process, answer, after =>
    ∃ ended scene, d.pipeline.MayProcess d.scene (ended, scene) ∧
      answer = .ended ended ∧ after = { d with scene }
  | .stop, answer, after => (answer, after) = d.act Act.stop
  | .close, answer, after =>
    let (ended, pipeline, shared) := d.pipeline.close d.scene.shared
    answer = .ended (ended.mapError .fault) ∧ after = { pipeline, scene := { d.scene with shared } }
  | .read key, answer, after => answer = .found (d.scene.flow.getByName key) ∧ after = d
  | .readAs key kind, answer, after => answer = .found (d.scene.flow.get key kind) ∧ after = d

/-- How often a use starts the stages. -/
def starts (d : Desk υ) : FlowUse → Nat
  | .process => if d.scene.flow.processed = false ∧ d.pipeline.closed = false then 1 else 0
  | _ => 0

/-- The stages are run on the flow, which is marked, with this answer. -/
def RunsStages (d : Desk υ) (answer : FlowAnswer) (after : Desk υ) : Prop :=
  ∃ passages ran, Passes d.pipeline.stages (begun d.scene) passages ran ∧
    answer = .ended (reported d.pipeline.settings ran).1 ∧ after = { d with scene := ran.2 }

/-- The uses may be answered so one after the other, the last one in front, and start the stages so often. -/
inductive Runs (start : Desk υ) : List (FlowUse × FlowAnswer) → Nat → Desk υ → Prop
  /-- Nothing has been done. -/
  | start : Runs start [] 0 start
  /-- One more use is answered. -/
  | use {past : List (FlowUse × FlowAnswer)} {n : Nat} {d after : Desk υ} {use : FlowUse} {answer : FlowAnswer}
      (hruns : Runs start past n d) (hanswers : d.Answers use answer after) :
      Runs start ((use, answer) :: past) (n + d.starts use) after

variable {d after : Desk υ} {use : FlowUse} {answer : FlowAnswer}

/-- Every use is answered. -/
theorem exists_answers (d : Desk υ) (use : FlowUse) : ∃ answer after, d.Answers use answer after := by
  cases use with
  | process => exact ⟨_, _, _, _, mayProcess_process d.pipeline d.scene, rfl, rfl⟩
  | addEvidence key value => exact ⟨_, _, rfl⟩
  | stop => exact ⟨_, _, rfl⟩
  | close => exact ⟨_, _, rfl, rfl⟩
  | read key => exact ⟨_, _, rfl, rfl⟩
  | readAs key kind => exact ⟨_, _, rfl, rfl⟩

/-- What it is to process a flow: it is refused if that has begun before. If the pipeline is closed it is refused
as well, and yet the flow is marked. Otherwise the stages are started, and the answer is another one. -/
theorem Answers.process_cases (hanswers : d.Answers .process answer after) :
    (d.scene.flow.processed = true ∧ d.starts .process = 0 ∧ answer = .refused .alreadyProcessed ∧ after = d) ∨
    (d.scene.flow.processed = false ∧ d.pipeline.closed = true ∧ d.starts .process = 0 ∧
      answer = .refused .closed ∧ after = { d with scene := begun d.scene }) ∨
    (d.scene.flow.processed = false ∧ d.pipeline.closed = false ∧ d.starts .process = 1 ∧
      answer ≠ .refused .alreadyProcessed ∧ answer ≠ .refused .closed ∧ d.RunsStages answer after) := by
  obtain ⟨ended, scene, hmay, rfl, rfl⟩ := hanswers
  obtain ⟨passages, hprocesses⟩ := mayProcess_iff.mp hmay
  generalize hresult : (ended, scene) = result at hprocesses
  cases hprocesses with
  | refused hbegin =>
    obtain ⟨rfl, rfl⟩ := Prod.mk.inj hresult
    obtain ⟨hmarked, rfl⟩ := Flow.begin_eq_error_iff.mp hbegin
    exact .inl ⟨hmarked, if_neg fun hnew => by simp [hmarked] at hnew, rfl, rfl⟩
  | closed hbegin hclosed =>
    obtain ⟨rfl, rfl⟩ := Prod.mk.inj hresult
    obtain ⟨hunmarked, rfl⟩ := Flow.begin_eq_ok_iff.mp hbegin
    exact .inr (.inl ⟨hunmarked, hclosed, if_neg fun hnew => by simp [hclosed] at hnew, rfl, rfl⟩)
  | @ran flow _ ran hbegin hopen hpasses =>
    obtain ⟨hunmarked, rfl⟩ := Flow.begin_eq_ok_iff.mp hbegin
    obtain ⟨hnotClosed, hnotProcessed⟩ := reported_ne_refused hpasses d.pipeline.settings
    have hleft := reported_snd d.pipeline.settings ran
    rw [← hresult] at hnotClosed hnotProcessed hleft
    refine .inr (.inr ⟨hunmarked, hopen, if_pos ⟨hunmarked, hopen⟩, ?_, ?_, passages, ran, hpasses, ?_, ?_⟩)
    · exact fun hrefused => hnotProcessed (FlowAnswer.ended.inj hrefused)
    · exact fun hrefused => hnotClosed (FlowAnswer.ended.inj hrefused)
    · rw [← hresult]
    · rw [← hleft]

/-- To process a flow is answered by the closed pipeline only if the flow is not marked. Either no stage is started
and nothing changes but the mark, or the stages are run. -/
theorem Answers.process_law (hanswers : d.Answers .process answer after) :
    (answer = .refused .closed ↔ d.scene.flow.processed = false ∧ d.pipeline.closed = true) ∧
    (d.starts .process = 0 → after = { d with scene := begun d.scene }) ∧
    (d.starts .process = 1 → d.RunsStages answer after) := by
  obtain ⟨hmarked, hnone, rfl, rfl⟩ | ⟨hunmarked, hclosed, hnone, rfl, rfl⟩ |
    ⟨-, hopened, hone, -, hnotClosed, hran⟩ := hanswers.process_cases
  · have hsame : begun after.scene = after.scene := begun_of_processed hmarked
    refine ⟨iff_of_false nofun fun hnew => by simp [hmarked] at hnew, fun _ => by rw [hsame], fun hone => ?_⟩
    exact absurd (hnone.symm.trans hone) Nat.zero_ne_one
  · refine ⟨iff_of_true rfl ⟨hunmarked, hclosed⟩, fun _ => rfl, fun hone => ?_⟩
    exact absurd (hnone.symm.trans hone) Nat.zero_ne_one
  · refine ⟨iff_of_false hnotClosed fun hnew => by simp [hopened] at hnew, fun hnone => ?_, fun _ => hran⟩
    exact absurd (hnone.symm.trans hone) Nat.zero_ne_one

/-- Evidence is taken unless the flow is marked, and then nothing changes. -/
theorem Answers.addEvidence_cases {key : String} {value : Json}
    (hanswers : d.Answers (.addEvidence key value) answer after) :
    (d.scene.flow.processed = true ∧ answer = .refused .alreadyProcessed ∧ after = d) ∨
    (d.scene.flow.processed = false ∧ answer = .ended (.ok ()) ∧
      after.scene.flow.processed = false ∧ after.pipeline = d.pipeline) := by
  rw [Answers, act, Act.runOn_tryFlow, Flow.addEvidence] at hanswers
  by_cases hmarked : d.scene.flow.processed = true
  · rw [if_pos hmarked] at hanswers
    obtain ⟨rfl, rfl⟩ := Prod.mk.inj hanswers
    exact .inl ⟨hmarked, rfl, rfl⟩
  · rw [if_neg hmarked] at hanswers
    obtain ⟨rfl, rfl⟩ := Prod.mk.inj hanswers
    rw [Bool.not_eq_true] at hmarked
    exact .inr ⟨hmarked, rfl, hmarked, rfl⟩

/-- No use but to process the flow sets or takes back the mark. -/
theorem Answers.processed_eq (hanswers : d.Answers use answer after) (hother : use ≠ .process) :
    after.scene.flow.processed = d.scene.flow.processed := by
  cases use with
  | process => exact absurd rfl hother
  | addEvidence key value =>
    obtain ⟨-, -, rfl⟩ | ⟨hunmarked, -, hunmarked', -⟩ := hanswers.addEvidence_cases
    · rfl
    · rw [hunmarked, hunmarked']
  | stop =>
    obtain ⟨-, rfl⟩ := Prod.mk.inj hanswers
    rfl
  | close =>
    obtain ⟨-, rfl⟩ := hanswers
    rfl
  | read key | readAs key kind =>
    obtain ⟨-, rfl⟩ := hanswers
    rfl

/-- The elements of a pipeline stay the same. -/
theorem Answers.elements_eq (hanswers : d.Answers use answer after) :
    after.pipeline.elements = d.pipeline.elements := by
  cases use with
  | close =>
    obtain ⟨-, rfl⟩ := hanswers
    exact elements_close d.pipeline d.scene.shared
  | addEvidence key value =>
    obtain ⟨-, -, rfl⟩ | ⟨-, -, -, hsame⟩ := hanswers.addEvidence_cases
    · rfl
    · rw [hsame]
  | process =>
    obtain ⟨_, _, -, -, rfl⟩ := hanswers
    rfl
  | stop =>
    obtain ⟨-, rfl⟩ := Prod.mk.inj hanswers
    rfl
  | read key | readAs key kind =>
    obtain ⟨-, rfl⟩ := hanswers
    rfl

/-- The answers tell whether the flow is marked. -/
theorem Answers.tells (hanswers : d.Answers use answer after) :
    answer.Tells d.scene.flow.processed use := by
  cases use with
  | addEvidence key value =>
    obtain ⟨hmarked, rfl, -⟩ | ⟨hunmarked, rfl, -⟩ := hanswers.addEvidence_cases
    · exact iff_of_true rfl hmarked
    · exact iff_of_false nofun (Bool.eq_false_iff.mp hunmarked)
  | process =>
    obtain ⟨hmarked, -, rfl, -⟩ | ⟨hunmarked, -, -, rfl, -⟩ | ⟨hunmarked, -, -, hnotProcessed, -⟩ :=
      hanswers.process_cases
    · exact iff_of_true rfl hmarked
    · exact iff_of_false nofun (Bool.eq_false_iff.mp hunmarked)
    · exact iff_of_false hnotProcessed (Bool.eq_false_iff.mp hunmarked)
  | read key =>
    obtain ⟨rfl, -⟩ := hanswers
    exact (FlowAnswer.found.injEq ..).to_iff.trans (d.scene.flow.getByName_eq_notProcessed_iff key)
  | readAs key kind =>
    obtain ⟨rfl, -⟩ := hanswers
    exact (FlowAnswer.found.injEq ..).to_iff.trans (d.scene.flow.get_eq_notProcessed_iff key kind)
  | stop | close => trivial

/-! ## Lives of flows -/

/-- The mark of a flow and the starts of its stages, by the answers to its uses. -/
structure Told (d : Desk υ) (past : List (FlowUse × FlowAnswer)) (n : Nat) : Prop where
  /-- No element takes the mark back. -/
  keeps : ∀ x ∈ d.pipeline.elements, x.KeepsProcessed
  /-- The flow is marked once it has been processed, whatever the answer. -/
  processed : d.scene.flow.processed = true ↔ ∃ answer, (.process, answer) ∈ past
  /-- The stages are started once at most. -/
  le_one : n ≤ 1
  /-- They have been if the flow is marked and was not turned away by its pipeline. -/
  started : n = 1 ↔ d.scene.flow.processed = true ∧ (.process, .refused .closed) ∉ past

namespace Told

variable {past : List (FlowUse × FlowAnswer)} {n : Nat}

/-- A use that does not process the flow changes nothing of this. -/
theorem of_ne_process (h : d.Told past n) (hanswers : d.Answers use answer after) (hother : use ≠ .process) :
    after.Told ((use, answer) :: past) (n + d.starts use) := by
  have hnoStart : d.starts use = 0 := by cases use <;> first | rfl | exact absurd rfl hother
  have hmemIff (told : FlowAnswer) : (.process, told) ∈ (use, answer) :: past ↔ (.process, told) ∈ past := by
    simp [Ne.symm hother]
  constructor
  · rw [hanswers.elements_eq]
    exact h.keeps
  · simp only [hmemIff, hanswers.processed_eq hother]
    exact h.processed
  · rw [hnoStart]
    exact h.le_one
  · rw [hnoStart, hmemIff, hanswers.processed_eq hother]
    exact h.started

/-- Nothing has been started for a flow that is not marked, and it was never processed. -/
theorem of_unmarked (h : d.Told past n) (hunmarked : d.scene.flow.processed = false) :
    n = 0 ∧ ∀ told, (FlowUse.process, told) ∉ past := by
  rw [← Bool.not_eq_true] at hunmarked
  have hnotStarted : n ≠ 1 := fun hone => hunmarked (h.started.mp hone).1
  have hleOne := h.le_one
  exact ⟨by omega, fun told hmem => hunmarked (h.processed.mpr ⟨told, hmem⟩)⟩

/-- To process the flow marks it, and starts the stages unless it is refused. -/
theorem of_process (h : d.Told past n) (hanswers : d.Answers .process answer after) :
    after.Told ((.process, answer) :: past) (n + d.starts .process) := by
  have hkeeps : ∀ x ∈ after.pipeline.elements, x.KeepsProcessed := by
    rw [hanswers.elements_eq]
    exact h.keeps
  have hasked : ∃ told, (FlowUse.process, told) ∈ (FlowUse.process, answer) :: past :=
    ⟨answer, List.mem_cons_self⟩
  obtain ⟨hmarked, hnoStart, rfl, rfl⟩ | ⟨hunmarked, -, hnoStart, rfl, rfl⟩ |
    ⟨hunmarked, -, hstart, -, hnotClosed, passages, ran, hpasses, -, rfl⟩ := hanswers.process_cases
  · rw [hnoStart]
    refine ⟨hkeeps, iff_of_true hmarked hasked, h.le_one, h.started.trans (and_congr_right fun _ => ?_)⟩
    simp [FlowAnswer.refused]
  · obtain ⟨rfl, -⟩ := h.of_unmarked hunmarked
    rw [hnoStart]
    refine ⟨hkeeps, iff_of_true rfl hasked, Nat.zero_le 1, iff_of_false nofun fun hstarted => ?_⟩
    exact hstarted.2 List.mem_cons_self
  · obtain ⟨rfl, hnever⟩ := h.of_unmarked hunmarked
    have hmarked : ran.2.flow.processed = true :=
      hpasses.holds h.keeps (fun _ _ hmarked => hmarked) rfl
    have hnotRefused : (FlowUse.process, FlowAnswer.refused .closed) ∉ (FlowUse.process, answer) :: past := by
      intro hmem
      obtain hsame | hearlier := List.mem_cons.mp hmem
      · exact hnotClosed (Prod.mk.inj hsame).2.symm
      · exact hnever _ hearlier
    rw [hstart]
    exact ⟨hkeeps, iff_of_true hmarked hasked, Nat.le_refl 1, iff_of_true rfl ⟨hmarked, hnotRefused⟩⟩

/-- A use of the flow or its pipeline that is answered is told as well. -/
theorem step (h : d.Told past n) (hanswers : d.Answers use answer after) :
    after.Told ((use, answer) :: past) (n + d.starts use) := by
  by_cases hprocess : use = .process
  · subst hprocess
    exact h.of_process hanswers
  · exact h.of_ne_process hanswers hprocess

end Told

variable {start : Desk υ} {past : List (FlowUse × FlowAnswer)} {n : Nat}

/-- All this holds along the life of a new flow. -/
theorem Runs.told (hruns : start.Runs past n d) (hkeeps : ∀ x ∈ start.pipeline.elements, x.KeepsProcessed)
    (hnew : start.scene.flow.processed = false) : d.Told past n := by
  induction hruns with
  | start => exact ⟨hkeeps, by simp [hnew], Nat.zero_le 1, by simp [hnew]⟩
  | use _ hanswers htold => exact htold.step hanswers

/-- When a flow counts as processed. Whatever is done with a new flow and its pipeline, every use is answered, and
the answers tell whether the flow is marked: it is from the first time that it is processed, whatever comes of
that. The stages are started once at most, and they have been started exactly for the marked flows, unless the
flow was turned away by a closed pipeline, which happens to flows only that are not marked. Whenever a flow is
processed and the stages are not started, nothing changes but the mark; otherwise they are run. -/
theorem processed_iff_started_iff (hkeeps : ∀ x ∈ start.pipeline.elements, x.KeepsProcessed)
    (hnew : start.scene.flow.processed = false) (hruns : start.Runs past n d) :
    (∀ use, ∃ answer after, d.Answers use answer after) ∧
    (∀ use answer after, d.Answers use answer after → answer.Tells d.scene.flow.processed use) ∧
    (d.scene.flow.processed = true ↔ ∃ answer, (.process, answer) ∈ past) ∧
    n ≤ 1 ∧
    ((d.scene.flow.processed = true ↔ n = 1) ↔ (.process, .refused .closed) ∉ past) ∧
    ∀ answer after, d.Answers .process answer after →
      (answer = .refused .closed ↔ d.scene.flow.processed = false ∧ d.pipeline.closed = true) ∧
      (d.starts .process = 0 → after = { d with scene := begun d.scene }) ∧
      (d.starts .process = 1 → d.RunsStages answer after) := by
  have htold := hruns.told hkeeps hnew
  refine ⟨d.exists_answers, fun use answer after hanswers => hanswers.tells, htold.processed, htold.le_one, ?_,
    fun answer after hanswers => hanswers.process_law⟩
  rw [htold.started]
  constructor
  · intro hlaw hrefused
    exact (hlaw.mp (htold.processed.mpr ⟨_, hrefused⟩)).2 hrefused
  · exact fun hnever => (and_iff_left hnever).symm

/-- A new flow with a pipeline of one element. -/
def opened : Desk (List String) where
  pipeline := { stages := [.single (told "only" (.ok ()))] }
  scene := untouched

/-- The element leaves the mark of the flow alone. -/
theorem keeps_opened : ∀ x ∈ opened.pipeline.elements, x.KeepsProcessed := by
  intro x hx
  obtain rfl : x = told "only" (.ok ()) := List.mem_singleton.mp hx
  exact fun scene hmarked => hmarked

/-- Of two times that the flow is processed the first one starts the stage, which is not called again. -/
theorem processed_iff_started_iff_of_opened :
    ∃ past n d, opened.Runs past n d ∧
      past.map Prod.snd = [.refused .alreadyProcessed, .ended (.ok ())] ∧
      d.scene.shared.user = ["only"] ∧ n ≤ 1 ∧ (d.scene.flow.processed = true ↔ n = 1) := by
  have hfirst : opened.Runs [(.process, .ended (.ok ()))] 1
      { opened with scene := (opened.pipeline.process.runOn opened.scene).2 } :=
    .use .start ⟨_, _, mayProcess_process _ _, rfl, rfl⟩
  have hsecond : opened.Runs [(.process, .refused .alreadyProcessed), (.process, .ended (.ok ()))] 1
      { opened with scene := (opened.pipeline.process.runOn opened.scene).2 } :=
    .use hfirst ⟨_, _, rfl, rfl, rfl⟩
  obtain ⟨-, -, -, hleOne, hlaw, -⟩ := processed_iff_started_iff keeps_opened rfl hsecond
  refine ⟨_, _, _, hsecond, rfl, rfl, hleOne, hlaw.mpr fun hrefused => ?_⟩
  simp [FlowAnswer.refused] at hrefused

/-- The pipeline is closed before the flow is processed. No stage is started, and yet the flow is marked: it takes
no evidence, and a read finds that its element has left nothing. -/
theorem not_processed_iff_started_of_closed :
    ∃ past n d, opened.Runs past n d ∧
      past.map Prod.snd =
        [.found (.error (.dataMissing "only")), .refused .alreadyProcessed, .refused .closed, .ended (.ok ())] ∧
      d.scene.shared.user = [] ∧ ¬(d.scene.flow.processed = true ↔ n = 1) := by
  let shut : Desk (List String) := { opened with pipeline := { opened.pipeline with closed := true } }
  let marked : Desk (List String) := { shut with scene := begun untouched }
  have hclosed : opened.Runs [(.close, .ended (.ok ()))] 0 shut := .use .start ⟨rfl, rfl⟩
  have hrefused : opened.Runs [(.process, .refused .closed), (.close, .ended (.ok ()))] 0 marked :=
    .use hclosed ⟨_, _, rfl, rfl, rfl⟩
  have hfrozen : opened.Runs
      [(.addEvidence "key" .null, .refused .alreadyProcessed), (.process, .refused .closed),
        (.close, .ended (.ok ()))] 0 marked :=
    .use hrefused rfl
  have hread : opened.Runs
      [(.read "only", .found (.error (.dataMissing "only"))),
        (.addEvidence "key" .null, .refused .alreadyProcessed), (.process, .refused .closed),
        (.close, .ended (.ok ()))] 0 marked :=
    .use hfrozen ⟨rfl, rfl⟩
  exact ⟨_, _, marked, hread, rfl, rfl, fun hlaw => Nat.zero_ne_one (hlaw.mp rfl)⟩

end Desk

end EvidenceFlow
