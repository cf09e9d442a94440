import EvidenceFlow.Proofs.Pipeline.Stages

/-!
# Elements that take turns

The elements of a stage run side by side: they are called once each, in any order, and what they end
with is collected in the order in which they are declared. So a pipeline may run in several ways, and
the one in which every stage calls its elements as they are declared is one of them.

A call is one step here. Elements that look at one another's work in the middle of a call are left out.
-/

namespace EvidenceFlow.Pipeline

variable {υ : Type}

/-! ## Calls -/

/-- An element that is called, and what it ends with. -/
abbrev Turn (υ : Type) := Element υ × Except Halt Unit

/-- The elements are called one after the other. -/
def Calls : List (Turn υ) → Scene υ → Scene υ → Prop
  | [], before, after => after = before
  | turn :: rest, before, after =>
    (turn.1.process.runOn before).1 = turn.2 ∧ Calls rest (turn.1.process.runOn before).2 after

/-- What elements end with is what one call of each ends with. -/
theorem calls_runAll (elements : List (Element υ)) (scene : Scene υ) :
    Calls (elements.zip (runAll elements scene).1) scene (runAll elements scene).2 ∧
      (runAll elements scene).1.length = elements.length := by
  induction elements generalizing scene with
  | nil => exact ⟨rfl, rfl⟩
  | cons element rest ih =>
    obtain ⟨hcalls, hlength⟩ := ih (element.process.runOn scene).2
    rw [runAll_cons]
    exact ⟨⟨rfl, hcalls⟩, congrArg Nat.succ hlength⟩

namespace Calls

variable {turns : List (Turn υ)} {before after : Scene υ}

/-- Each turn is a call on some scene. -/
theorem exists_call (h : Calls turns before after) {turn : Turn υ} (hturn : turn ∈ turns) :
    ∃ scene, (turn.1.process.runOn scene).1 = turn.2 := by
  induction turns generalizing before with
  | nil => cases hturn
  | cons first rest ih =>
    rcases List.mem_cons.mp hturn with rfl | hrest
    · exact ⟨before, h.1⟩
    · exact ih h.2 hrest

/-- What every element preserves holds after the calls if it did before. -/
theorem holds {inv : Scene υ → Prop} (h : Calls turns before after)
    (hkept : ∀ turn ∈ turns, turn.1.process.Preserves inv) (hbefore : inv before) : inv after := by
  induction turns generalizing before with
  | nil =>
    rw [Calls] at h
    rwa [h]
  | cons first rest ih =>
    rw [List.forall_mem_cons] at hkept
    exact ih h.2 hkept.2 (hkept.1 before hbefore)

/-- What no call changes stays. -/
theorem preserves {α : Type} (h : Calls turns before after) (part : Scene υ → α)
    (hkept : ∀ turn ∈ turns, ∀ scene, part (turn.1.process.runOn scene).2 = part scene) :
    part after = part before := by
  have hsame : ∀ turn ∈ turns, turn.1.process.Preserves fun scene => part scene = part before :=
    fun turn hturn scene hscene => (hkept turn hturn scene).trans hscene
  exact h.holds hsame rfl

end Calls

/-! ## Stages -/

/-- A stage on the way of a flow. -/
structure Passage (υ : Type) where
  /-- The stage. -/
  stage : Stage υ
  /-- What its elements end with, in the order in which they are declared. -/
  ended : List (Except Halt Unit)
  /-- The calls of its elements, in the order in which they take place. -/
  turns : List (Turn υ)
  /-- What the calls leave. -/
  left : Scene υ

namespace Passage

/-- The faults of the elements, in the order in which they are declared. -/
def faults (passage : Passage υ) : List Incident :=
  faultsOf passage.stage.elements passage.ended

/-- What the stage ends with after the calls, and what it leaves. -/
def concluded (passage : Passage υ) : Except Halt Unit × Scene υ :=
  (conclude passage.ended passage.faults).runOn passage.left

/-- Every element of the stage is called once. -/
structure From (passage : Passage υ) (scene : Scene υ) : Prop where
  /-- Every element ends. -/
  length_eq : passage.ended.length = passage.stage.elements.length
  /-- The turns are those of the elements. -/
  perm : passage.turns.Perm (passage.stage.elements.zip passage.ended)
  /-- The turns lead from the scene to what is left. -/
  calls : Calls passage.turns scene passage.left

/-- The passage in which the elements are called as they are declared. -/
def declared (stage : Stage υ) (scene : Scene υ) : Passage υ where
  stage := stage
  ended := (runAll stage.elements scene).1
  turns := stage.elements.zip (runAll stage.elements scene).1
  left := (runAll stage.elements scene).2

/-- The elements may be called as they are declared. -/
theorem declared_from (stage : Stage υ) (scene : Scene υ) : (declared stage scene).From scene where
  length_eq := (calls_runAll stage.elements scene).2
  perm := .refl _
  calls := (calls_runAll stage.elements scene).1

/-- A stage is run in the passage in which its elements are called as they are declared. -/
theorem runOn_runStage (stage : Stage υ) (scene : Scene υ) :
    (runStage stage.elements).runOn scene = (declared stage scene).concluded := by
  rw [runStage_eq, Act.runOn_bind, Act.runOn_modifyGet]
  rfl

end Passage

/-! ## Runs -/

/-- The stages may be run so, whatever the order of the calls in each stage. -/
def MayRun : List (Stage υ) → Scene υ → Except Halt Unit × Scene υ → Prop
  | [], scene, result => result = (.ok (), scene)
  | stage :: rest, scene, result =>
    ∃ passage : Passage υ, passage.stage = stage ∧ passage.From scene ∧
      match passage.concluded with
      | (.ok (), after) => if after.flow.stopped then result = (.ok (), after) else MayRun rest after result
      | (.error halt, after) => result = (.error halt, after)

/-- The pipeline may process the flow so, whatever the order of the calls in each stage. -/
def MayProcess (p : Pipeline υ) (scene : Scene υ) (result : Except Halt Unit × Scene υ) : Prop :=
  match scene.flow.begin with
  | .error fault => result = (.error (.fault fault), scene)
  | .ok flow =>
    if p.closed then result = (.error (.fault .closed), { scene with flow })
    else
      ∃ ran, MayRun p.stages { scene with flow } ran ∧
        match ran with
        | (.ok (), after) => result = (report p.settings after.flow).runOn after
        | (.error halt, after) => result = (.error halt, after)

/-- To run the stages with the calls as they are declared is one way. -/
theorem mayRun_runStages (stages : List (Stage υ)) (scene : Scene υ) :
    MayRun stages scene ((runStages stages).runOn scene) := by
  induction stages generalizing scene with
  | nil => exact rfl
  | cons stage rest ih =>
    refine ⟨.declared stage scene, rfl, Passage.declared_from stage scene, ?_⟩
    rw [runStages_cons, Act.runOn_bind, Passage.runOn_runStage]
    rcases (Passage.declared stage scene).concluded with ⟨concluded, after⟩
    cases concluded with
    | error halt => rfl
    | ok _ =>
      simp only [Act.runOn_bind, Act.runOn_get]
      split
      · rfl
      · exact ih after

/-- To process the flow with the calls as they are declared is one way. -/
theorem mayProcess_process (p : Pipeline υ) (scene : Scene υ) :
    p.MayProcess scene (p.process.runOn scene) := by
  rw [MayProcess, process_eq, Act.runOn_bind, Act.runOn_tryFlow]
  cases scene.flow.begin with
  | error fault => rfl
  | ok flow =>
    simp only
    split
    · rfl
    · refine ⟨_, mayRun_runStages p.stages { scene with flow }, ?_⟩
      rw [run_eq, Act.runOn_bind]
      rcases (runStages p.stages).runOn { scene with flow } with ⟨ran, after⟩
      cases ran <;> rfl

end EvidenceFlow.Pipeline
