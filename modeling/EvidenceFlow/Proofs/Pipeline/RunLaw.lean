import EvidenceFlow.Proofs.Pipeline.Turns
import Mathlib.Data.List.Basic

/-!
# What a run of a pipeline amounts to

A run goes through the stages until one ends it: because an element of the stage ends with a fault in
settings, or because the flow has been stopped by then. All elements of the stages up to that one are
called once, also those that run beside an element that fails, and no others. The other faults are
recorded in the order in which the elements are declared, those of the last stage too. The run ends
with the first fault in settings, or else with all the incidents of the flow, older ones included,
unless there are none or they are suppressed.
-/

namespace EvidenceFlow

variable {υ : Type}

/-- The element always comes to an end of its own, and leaves the incidents of the flow to the pipeline. -/
structure Element.Orderly (x : Element υ) : Prop where
  /-- It records nothing. -/
  incidents_eq : ∀ scene, (x.process.runOn scene).2.flow.incidents = scene.flow.incidents
  /-- It is not broken off. -/
  ne_panic : ∀ scene message, (x.process.runOn scene).1 ≠ .error (.panic message)

namespace Pipeline

/-- The end with a fault, if there is one. -/
def endWith : Option Fault → Except Halt Unit
  | some fault => .error (.fault fault)
  | none => .ok ()

/-! ## Stages -/

namespace Passage

/-- The first fault in settings, in the order in which the elements are declared. -/
def fatal? (passage : Passage υ) : Option Fault :=
  (passage.faults.find? fun incident => incident.fault.isFatal).map (·.fault)

/-- The other faults, in the order in which the elements are declared. -/
def recorded (passage : Passage υ) : List Incident :=
  passage.faults.filter fun incident => !incident.fault.isFatal

/-- What the stage leaves: what its calls leave, with the other faults recorded. -/
def noted (passage : Passage υ) : Scene υ :=
  { passage.left with
    flow := { passage.left.flow with incidents := passage.left.flow.incidents ++ passage.recorded } }

/-- No stage is run after this one. -/
def EndsRun (passage : Passage υ) : Prop :=
  passage.fatal?.isSome = true ∨ passage.left.flow.stopped = true

variable {passage : Passage υ} {scene : Scene υ}

/-- Every element of the stage is called once, in some order. -/
theorem From.map_turns_perm (h : passage.From scene) :
    (passage.turns.map Prod.fst).Perm passage.stage.elements := by
  have hfst : (passage.stage.elements.zip passage.ended).map Prod.fst = passage.stage.elements :=
    List.map_fst_zip (Nat.le_of_eq h.length_eq.symm)
  exact hfst ▸ h.perm.map Prod.fst

/-- The elements that are called are those of the stage. -/
theorem From.mem_elements (h : passage.From scene) {turn : Turn υ} (hturn : turn ∈ passage.turns) :
    turn.1 ∈ passage.stage.elements :=
  h.map_turns_perm.mem_iff.mp (List.mem_map_of_mem hturn)

/-- Each end is that of a call. -/
theorem From.exists_turn (h : passage.From scene) {ended : Except Halt Unit} (hended : ended ∈ passage.ended) :
    ∃ turn ∈ passage.turns, turn.2 = ended := by
  have hsnd : (passage.stage.elements.zip passage.ended).map Prod.snd = passage.ended :=
    List.map_snd_zip (Nat.le_of_eq h.length_eq)
  rw [← hsnd] at hended
  obtain ⟨turn, hturn, rfl⟩ := List.mem_map.mp hended
  exact ⟨turn, h.perm.mem_iff.mpr hturn, rfl⟩

section

variable (h : passage.From scene) (horderly : ∀ x ∈ passage.stage.elements, x.Orderly)

include h horderly

/-- No element of the stage is broken off. -/
theorem From.findSome?_panicOf? : passage.ended.findSome? panicOf? = none := by
  rw [List.findSome?_eq_none_iff]
  intro ended hended
  obtain ⟨turn, hturn, rfl⟩ := h.exists_turn hended
  obtain ⟨before, hcall⟩ := h.calls.exists_call hturn
  have hends := (horderly turn.1 (h.mem_elements hturn)).ne_panic before
  rw [hcall] at hends
  rcases hcase : turn.2 with (_ | message) | _
  · rfl
  · exact absurd hcase (hends message)
  · rfl

/-- The calls of a stage record nothing. -/
theorem From.incidents_left : passage.left.flow.incidents = scene.flow.incidents :=
  h.calls.preserves (·.flow.incidents) fun turn hturn => (horderly turn.1 (h.mem_elements hturn)).incidents_eq

/-- A stage records its faults and ends with the first one in settings. -/
theorem From.concluded_eq :
    passage.concluded = (endWith passage.fatal?, passage.noted) := by
  rw [concluded, conclude, h.findSome?_panicOf? horderly]
  simp only [List.partition_eq_filter_filter]
  rw [Act.runOn_bind, Act.runOn_onFlow, Flow.addIncidents_eq, fatal?, ← List.head?_filter]
  cases passage.faults.filter fun incident => incident.fault.isFatal <;> rfl

end

end Passage

/-! ## Courses -/

/-- The stages are passed one after the other, and each one finds what the one before left. -/
def Linked : Scene υ → List (Passage υ) → Scene υ → Prop
  | start, [], after => after = start
  | start, passage :: later, after => passage.From start ∧ Linked passage.noted later after

/-- The course of a run: the stages that it passes. -/
structure Course (stages : List (Stage υ)) (start : Scene υ) (passages : List (Passage υ))
    (after : Scene υ) : Prop where
  /-- The stages are the first ones. -/
  stages_eq : passages.map (·.stage) = stages.take passages.length
  /-- In each one every element is called once; beside that, only faults are recorded. -/
  linked : Linked start passages after
  /-- No stage but the last one ends the run. -/
  goesOn : ∀ passage ∈ passages.dropLast, ¬passage.EndsRun
  /-- The last one does if there are more stages. -/
  ends : passages.length < stages.length → ∃ last ∈ passages.getLast?, last.EndsRun

namespace Course

variable {stages rest : List (Stage υ)} {passage : Passage υ} {passages : List (Passage υ)}
  {start after : Scene υ}

/-- Without stages there is nothing to pass. -/
theorem nil (start : Scene υ) : Course [] start [] start where
  stages_eq := rfl
  linked := rfl
  goesOn := nofun
  ends := nofun

/-- The run ends after its first stage. -/
theorem last (h : passage.From start) (hends : passage.EndsRun) :
    Course (passage.stage :: rest) start [passage] passage.noted where
  stages_eq := rfl
  linked := ⟨h, rfl⟩
  goesOn := nofun
  ends := fun _ => ⟨passage, rfl, hends⟩

/-- The run goes on after its first stage. -/
theorem cons (h : passage.From start) (hgo : ¬passage.EndsRun)
    (hrest : Course rest passage.noted passages after) :
    Course (passage.stage :: rest) start (passage :: passages) after where
  stages_eq := congrArg (passage.stage :: ·) hrest.stages_eq
  linked := ⟨h, hrest.linked⟩
  goesOn := by
    cases passages with
    | nil => exact nofun
    | cons second later =>
      rw [List.dropLast_cons_of_ne_nil (List.cons_ne_nil second later)]
      exact List.forall_mem_cons.mpr ⟨hgo, hrest.goesOn⟩
  ends := fun hmore => by
    obtain ⟨last, hlast, hends⟩ := hrest.ends (Nat.lt_of_succ_lt_succ hmore)
    exact ⟨last, List.mem_getLast?_cons hlast, hends⟩

/-- The calls are those of the elements of the stages passed, one for each occurrence. -/
theorem turns_perm (h : Course stages start passages after) :
    ((passages.flatMap Passage.turns).map Prod.fst).Perm (elementsOf (stages.take passages.length)) := by
  rw [← h.stages_eq, elementsOf, List.map_flatMap, List.flatMap_map]
  have hlinked := h.linked
  clear h
  induction passages generalizing start with
  | nil => exact .refl _
  | cons passage later ih =>
    obtain ⟨hfrom, hlater⟩ := hlinked
    rw [List.flatMap_cons, List.flatMap_cons]
    exact hfrom.map_turns_perm.append (ih hlater)

/-- What the passages record is all that is added to the incidents of the flow. -/
theorem incidents_eq (h : Course stages start passages after) (horderly : ∀ x ∈ elementsOf stages, x.Orderly) :
    after.flow.incidents = start.flow.incidents ++ passages.flatMap Passage.recorded := by
  have hmembers : ∀ passage ∈ passages, ∀ x ∈ passage.stage.elements, x.Orderly := by
    intro passage hpassage x hx
    have hstage : passage.stage ∈ stages :=
      List.mem_of_mem_take (h.stages_eq ▸ List.mem_map_of_mem hpassage)
    exact horderly x (List.mem_flatMap.mpr ⟨passage.stage, hstage, hx⟩)
  have hlinked := h.linked
  clear h
  induction passages generalizing start with
  | nil => rw [hlinked, List.flatMap_nil, List.append_nil]
  | cons passage later ih =>
    obtain ⟨hfrom, hlater⟩ := hlinked
    rw [List.forall_mem_cons] at hmembers
    rw [ih hmembers.2 hlater, Passage.noted, hfrom.incidents_left hmembers.1, List.flatMap_cons,
      List.append_assoc]

end Course

/-- Every run of stages has a course, and ends with the first fault in settings of its last stage. -/
theorem exists_course {stages : List (Stage υ)} (horderly : ∀ x ∈ elementsOf stages, x.Orderly)
    {start : Scene υ} {ran : Except Halt Unit × Scene υ} (h : MayRun stages start ran) :
    ∃ passages, Course stages start passages ran.2 ∧
      ran.1 = endWith (passages.getLast?.bind Passage.fatal?) := by
  induction stages generalizing start with
  | nil =>
    rw [MayRun] at h
    rw [h]
    exact ⟨[], .nil start, rfl⟩
  | cons stage rest ih =>
    obtain ⟨passage, rfl, hfrom, hrest⟩ := h
    rw [elementsOf, List.flatMap_cons, List.forall_mem_append] at horderly
    rw [hfrom.concluded_eq horderly.1] at hrest
    cases hfatal : passage.fatal? with
    | some fault =>
      rw [hfatal, endWith] at hrest
      refine ⟨[passage], hrest ▸ .last hfrom (.inl (hfatal ▸ rfl)), ?_⟩
      rw [hrest, List.getLast?_singleton, Option.bind_some, hfatal, endWith]
    | none =>
      rw [hfatal, endWith] at hrest
      cases hstopped : passage.left.flow.stopped with
      | true =>
        replace hrest : ran = (.ok (), passage.noted) := (if_pos hstopped).mp hrest
        refine ⟨[passage], hrest ▸ .last hfrom (.inr hstopped), ?_⟩
        rw [hrest, List.getLast?_singleton, Option.bind_some, hfatal, endWith]
      | false =>
        replace hrest : MayRun rest passage.noted ran := (if_neg (Bool.not_eq_true _ ▸ hstopped)).mp hrest
        obtain ⟨passages, hcourse, hended⟩ := ih horderly.2 hrest
        have hgo : ¬passage.EndsRun := by
          rintro (hsome | hstop)
          · rw [hfatal] at hsome
            cases hsome
          · rw [hstopped] at hstop
            cases hstop
        refine ⟨passage :: passages, .cons hfrom hgo hcourse, ?_⟩
        cases passages with
        | nil => rw [hended, List.getLast?_singleton, Option.bind_some, hfatal]; rfl
        | cons second later => rw [hended, List.getLast?_cons_cons]

/-- How a run ends: with a fault in settings if there is one, or else with the incidents of the flow
unless there are none or they are suppressed. -/
def endOf (settings : PipelineSettings) (fatal : Option Fault) (incidents : List Incident) :
    Except Halt Unit :=
  endWith (fatal.or
    (if incidents ≠ [] ∧ settings.suppressIncidents = false then some (.aggregate incidents) else none))

/-- The report looks at the incidents and changes nothing. -/
theorem runOn_report (settings : PipelineSettings) (scene : Scene υ) :
    (report settings scene.flow).runOn scene = (endOf settings none scene.flow.incidents, scene) := by
  rw [report, endOf, Option.none_or]
  cases scene.flow.incidents <;> cases settings.suppressIncidents <;> rfl

/-- The flow of the scene is being processed. -/
def begun (scene : Scene υ) : Scene υ :=
  { scene with flow := { scene.flow with processed := true } }

/-- An open pipeline whose elements come to an end of their own processes a new flow in a course, in
whatever order the elements of a stage are called: the elements of its stages are called, once for each
occurrence, their faults and no other incidents are recorded, and it ends with the first fault in settings
of its last stage or else with all incidents of the flow. -/
theorem mayProcess_course {p : Pipeline υ} {scene : Scene υ} (hopen : p.closed = false)
    (hnew : scene.flow.processed = false) (horderly : ∀ x ∈ p.elements, x.Orderly) :
    p.MayProcess scene (p.process.runOn scene) ∧
    ∀ ended after, p.MayProcess scene (ended, after) →
      ∃ passages, Course p.stages (begun scene) passages after ∧
        ((passages.flatMap Passage.turns).map Prod.fst).Perm (elementsOf (p.stages.take passages.length)) ∧
        after.flow.incidents = scene.flow.incidents ++ passages.flatMap Passage.recorded ∧
        ended = endOf p.settings (passages.getLast?.bind Passage.fatal?) after.flow.incidents := by
  refine ⟨mayProcess_process p scene, fun ended after h => ?_⟩
  have hbegin : scene.flow.begin = .ok (begun scene).flow := by
    rw [Flow.begin, hnew]
    rfl
  simp only [MayProcess, hbegin, hopen, Bool.false_eq_true, if_false] at h
  obtain ⟨⟨halted, left⟩, hran, hresult⟩ := h
  obtain ⟨passages, hcourse, hended⟩ := exists_course horderly hran
  cases hfatal : passages.getLast?.bind Passage.fatal? with
  | some fault =>
    rw [hfatal, endWith] at hended
    obtain rfl : halted = .error (.fault fault) := hended
    obtain ⟨rfl, rfl⟩ := Prod.mk.inj hresult
    exact ⟨passages, hcourse, hcourse.turns_perm, hcourse.incidents_eq horderly, by rw [hfatal]; rfl⟩
  | none =>
    rw [hfatal, endWith] at hended
    obtain rfl : halted = .ok () := hended
    simp only [runOn_report] at hresult
    obtain ⟨rfl, rfl⟩ := Prod.mk.inj hresult
    exact ⟨passages, hcourse, hcourse.turns_perm, hcourse.incidents_eq horderly, by rw [hfatal]⟩

/-- An element that notes its key and ends as it is told. -/
def told (key : String) (ended : Except Fault Unit) : Element (List String) where
  number := 0
  key := key
  filter := .all
  process := do
    Act.onShared fun shared => ((), { shared with user := shared.user ++ [key] })
    Act.ofExcept ended

/-- An element that ends as it is told is orderly. -/
theorem told_orderly (key : String) (ended : Except Fault Unit) : (told key ended).Orderly := by
  cases ended with
  | ok _ => exact ⟨fun scene => rfl, fun scene message => nofun⟩
  | error fault => exact ⟨fun scene => rfl, fun scene message => nofun⟩

/-- Of the three elements that run side by side all fail, one of them in its settings. -/
def troubled : Pipeline (List String) where
  stages :=
    [.single (told "first" (.error (.element "first" "late"))),
      .parallel
        [told "left" (.error .notProcessed), told "middle" (.error (.setting (.missing "size"))),
          told "right" (.error (.element "right" "lost"))],
      .single (told "last" (.ok ()))]
  settings := { suppressIncidents := true }

/-- A new flow, and nothing is noted yet. -/
def untouched : Scene (List String) := { flow := {}, shared := { user := [] } }

/-- The troubled pipeline calls all but its last element and ends with the fault in settings. -/
theorem mayProcess_course_of_troubled :
    (∃ passages, Course troubled.stages (begun untouched) passages (troubled.process.runOn untouched).2 ∧
      (troubled.process.runOn untouched).1 =
        endOf troubled.settings (passages.getLast?.bind Passage.fatal?)
          (troubled.process.runOn untouched).2.flow.incidents) ∧
    (troubled.process.runOn untouched).2.shared.user = ["first", "left", "middle", "right"] ∧
    (troubled.process.runOn untouched).2.flow.incidents.map Incident.element = ["first", "left", "right"] ∧
    (troubled.process.runOn untouched).1 = .error (.fault (.setting (.missing "size"))) := by
  have horderly : ∀ x ∈ troubled.elements, x.Orderly := by
    intro x hx
    simp only [Pipeline.elements, elementsOf, troubled, List.flatMap_cons, List.flatMap_nil, Stage.elements,
      List.cons_append, List.nil_append, List.append_nil, List.mem_cons, List.not_mem_nil, or_false] at hx
    rcases hx with rfl | rfl | rfl | rfl | rfl <;> exact told_orderly _ _
  obtain ⟨hone, hall⟩ := @mayProcess_course _ troubled untouched rfl rfl horderly
  obtain ⟨passages, hcourse, -, -, hended⟩ := hall _ _ hone
  exact ⟨⟨passages, hcourse, hended⟩, rfl, rfl, rfl⟩

end Pipeline

end EvidenceFlow
