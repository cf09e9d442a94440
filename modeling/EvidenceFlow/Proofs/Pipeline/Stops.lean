import EvidenceFlow.Proofs.Pipeline.Predecessors
import EvidenceFlow.Proofs.Pipeline.Schedules

/-!
# Where a stop ends a run

Whether the flow has been stopped is looked at behind each stage, and nowhere else. So a stop during the
calls of a stage makes it the last one, whichever call it was, and no later stage begins on a stopped flow.
The first stage does: the flow may have been stopped before it is processed, and is looked at only then.
-/

namespace EvidenceFlow

variable {υ : Type}

/-- The element does not take a stop back. -/
def Element.KeepsStop (x : Element υ) : Prop :=
  x.process.Preserves fun scene => scene.flow.stopped = true

namespace Pipeline

/-! ## Stops within a stage -/

/-- Calls may be cut at any place. -/
theorem Calls.of_append {called rest : List (Turn υ)} {before after : Scene υ}
    (hcalls : Calls (called ++ rest) before after) :
    ∃ middle, Calls called before middle ∧ Calls rest middle after := by
  induction called generalizing before with
  | nil => exact ⟨before, rfl, hcalls⟩
  | cons first called ih =>
    obtain ⟨hended, hcalls⟩ := hcalls
    obtain ⟨middle, hcalled, hrest⟩ := ih hcalls
    exact ⟨middle, ⟨hended, hcalled⟩, hrest⟩

/-- Calls leave one scene only. -/
theorem Calls.unique {turns : List (Turn υ)} {before after after' : Scene υ}
    (hcalls : Calls turns before after) (hcalls' : Calls turns before after') : after = after' := by
  induction turns generalizing before with
  | nil => exact hcalls.trans hcalls'.symm
  | cons first rest ih => exact ih hcalls.2 hcalls'.2

namespace Passage

variable {passage : Passage υ} {scene : Scene υ}

/-- The flow is stopped when the passage begins, or is so behind some of its calls. -/
def MeetsStop (passage : Passage υ) (scene : Scene υ) : Prop :=
  ∃ called rest middle, passage.turns = called ++ rest ∧ Calls called scene middle ∧
    middle.flow.stopped = true

/-- A passage that begins on a stopped flow meets the stop. -/
theorem meetsStop_of_stopped (hstopped : scene.flow.stopped = true) : passage.MeetsStop scene :=
  ⟨[], passage.turns, scene, rfl, rfl, hstopped⟩

/-- No stage is run behind one that meets a stop. -/
theorem From.final_of_meetsStop (h : passage.From scene)
    (hkeeps : ∀ x ∈ passage.stage.elements, x.KeepsStop) (hmeets : passage.MeetsStop scene) :
    Final passage.concluded := by
  obtain ⟨called, rest, middle, hsplit, hcalled, hstopped⟩ := hmeets
  have hcalls := h.calls
  rw [hsplit] at hcalls
  obtain ⟨middle', hcalled', hrest⟩ := hcalls.of_append
  obtain rfl := hcalled.unique hcalled'
  have hrestKeeps : ∀ turn ∈ rest, turn.1.KeepsStop := by
    intro turn hturn
    apply hkeeps
    apply h.mem_elements
    rw [hsplit]
    exact List.mem_append_right _ hturn
  have hleftStopped : passage.left.flow.stopped = true := hrest.holds hrestKeeps hstopped
  -- to conclude the stage does not take the stop back
  have hconcludes : (conclude passage.ended passage.faults : Act υ Unit).Preserves
      fun scene => scene.flow.stopped = true := preserves_conclude (fun _ _ hstopped => hstopped) _ _
  exact .inr (hconcludes passage.left hleftStopped)

end Passage

/-! ## Stops within a run -/

namespace Passes

variable {stages : List (Stage υ)} {start : Scene υ} {before later : List (Passage υ)} {passage : Passage υ}
  {result : Except Halt Unit × Scene υ}

/-- Each passage is one of a stage of the run, on the scene that those before it have reached. If nothing is
run behind it, it is the last one. -/
theorem from_reached (h : Passes stages start (before ++ passage :: later) result) :
    passage.stage ∈ stages ∧ passage.From (reached start before) ∧
      (Final passage.concluded → later = []) := by
  have hbehind := h.drop
  cases hstages : stages.drop before.length with
  | nil =>
    rw [hstages] at hbehind
    cases hbehind
  | cons stage rest =>
    rw [hstages] at hbehind
    obtain ⟨rfl, hfrom, hlater⟩ := hbehind.cons
    refine ⟨List.mem_of_mem_drop (hstages ▸ List.mem_cons_self), hfrom, fun hfinal => ?_⟩
    exact (hlater.resolve_right fun hgoesOn => hgoesOn.1 hfinal).2.1

/-- No stage behind the first one begins on a stopped flow. -/
theorem not_stopped (h : Passes stages start (before ++ passage :: later) result) (hsome : before ≠ []) :
    (reached start before).flow.stopped = false := by
  induction before generalizing stages start with
  | nil => exact absurd rfl hsome
  | cons first before ih =>
    cases stages with
    | nil => cases h
    | cons stage rest =>
      obtain ⟨-, -, ⟨-, hnone, -⟩ | ⟨hgo, hrest⟩⟩ := h.cons
      · simp at hnone
      · cases before with
        | nil => exact (not_final_iff.mp hgo).2
        | cons second before => exact ih hrest (List.cons_ne_nil second before)

end Passes

/-- No stage begins on a flow that has been stopped. -/
def HeedsStop (start : Scene υ) (passages : List (Passage υ)) : Prop :=
  ∀ before passage later, passages = before ++ passage :: later →
    (reached start before).flow.stopped = false

/-- A stop ends a run behind the stage that it meets, and so no stage begins on a stopped flow if and only
if the flow was not stopped before it is processed or nothing is run at all. A flow that was stopped before
passes the first stage, and no other. -/
theorem heedsStop_iff {p : Pipeline υ} {scene : Scene υ} (hkeeps : ∀ x ∈ p.elements, x.KeepsStop) :
    (∃ passages, p.Processes scene passages (p.process.runOn scene)) ∧
    ∀ passages result, p.Processes scene passages result →
      (∀ before passage later, passages = before ++ passage :: later →
        passage.MeetsStop (reached (begun scene) before) → later = []) ∧
      (HeedsStop (begun scene) passages ↔ scene.flow.stopped = true → passages = []) ∧
      (scene.flow.stopped = true → scene.flow.processed = false → p.closed = false →
        passages.map (·.stage) = p.stages.take 1) := by
  refine ⟨exists_processes p scene, fun passages result hprocesses => ?_⟩
  have hlast : ∀ before passage later, passages = before ++ passage :: later →
      passage.MeetsStop (reached (begun scene) before) → later = [] := by
    rintro before passage later rfl hmeets
    obtain ⟨ran, -, hpasses⟩ := hprocesses.passes_of_ne_nil (by simp)
    obtain ⟨hstage, hfrom, hends⟩ := hpasses.from_reached
    apply hends
    apply hfrom.final_of_meetsStop _ hmeets
    exact fun x hx => hkeeps x (List.mem_flatMap.mpr ⟨passage.stage, hstage, hx⟩)
  refine ⟨hlast, ⟨fun heeds hstopped => ?_, fun hidle => ?_⟩, fun hstopped hnew hopen => ?_⟩
  · cases passages with
    | nil => rfl
    | cons first later =>
      have hrunning : scene.flow.stopped = false := heeds [] first later rfl
      rw [hstopped] at hrunning
      cases hrunning
  · rintro before passage later rfl
    obtain ⟨ran, -, hpasses⟩ := hprocesses.passes_of_ne_nil (by simp)
    cases before with
    | nil => exact Bool.eq_false_iff.mpr fun hstopped => by simpa using hidle hstopped
    | cons first before => exact hpasses.not_stopped (List.cons_ne_nil first before)
  · cases hprocesses with
    | refused hbegin => simp [Flow.begin, hnew] at hbegin
    | closed _ hclosed => simp [hopen] at hclosed
    | ran _ _ hpasses =>
      cases passages with
      | nil =>
        cases hstages : p.stages with
        | nil => rfl
        | cons stage rest =>
          rw [hstages] at hpasses
          cases hpasses
      | cons first later =>
        obtain rfl := hlast [] first later rfl (Passage.meetsStop_of_stopped hstopped)
        exact List.prefix_iff_eq_take.mp hpasses.stages_prefix

/-- An element that ends as it is told does not take a stop back. -/
theorem told_keepsStop (key : String) (ended : Except Fault Unit) : (told key ended).KeepsStop := by
  intro scene hstopped
  cases ended <;> exact hstopped

/-- An element that notes its key and stops the flow. -/
def halting (key : String) : Element (List String) where
  number := 0
  key := key
  filter := .all
  process := do
    Act.onShared fun shared => ((), { shared with user := shared.user ++ [key] })
    Act.stop

/-- The first of two elements that run side by side stops the flow. -/
def halted : Pipeline (List String) where
  stages := [.parallel [halting "left", told "right" (.ok ())], .single (told "last" (.ok ()))]

/-- The stop is met by the first stage, which is run to its end, and keeps the second one from being run. -/
theorem heedsStop_iff_of_halted :
    (∃ passages, halted.Processes untouched passages (halted.process.runOn untouched) ∧
      HeedsStop (begun untouched) passages) ∧
    (halted.process.runOn untouched).2.shared.user = ["left", "right"] := by
  have hkeeps : ∀ x ∈ halted.elements, x.KeepsStop := by
    intro x hx
    simp only [Pipeline.elements, elementsOf, halted, List.flatMap_cons, List.flatMap_nil, Stage.elements,
      List.cons_append, List.nil_append, List.append_nil, List.mem_cons, List.not_mem_nil, or_false] at hx
    rcases hx with rfl | rfl | rfl
    · exact fun scene _ => rfl
    · exact told_keepsStop _ _
    · exact told_keepsStop _ _
  obtain ⟨⟨passages, hprocesses⟩, hlaw⟩ := @heedsStop_iff _ halted untouched hkeeps
  obtain ⟨-, heeds, -⟩ := hlaw passages _ hprocesses
  exact ⟨⟨passages, hprocesses, heeds.mpr fun hstopped => by cases hstopped⟩, rfl⟩

/-- Two elements run one after the other. -/
def successive : Pipeline (List String) where
  stages := [.single (told "first" (.ok ())), .single (told "second" (.ok ()))]

/-- The flow has been stopped before it is processed, and yet the first element is called. -/
theorem not_heedsStop_of_stopped :
    let stopped := (Act.stop.runOn untouched).2
    (∃ passages, successive.Processes stopped passages (successive.process.runOn stopped) ∧
      ¬HeedsStop (begun stopped) passages) ∧
    (successive.process.runOn stopped).2.shared.user = ["first"] := by
  intro stopped
  let first := Passage.declared successive.stages[0] (begun stopped)
  have hpasses : Passes successive.stages (begun stopped) [first] first.concluded :=
    .last rfl (Passage.declared_from _ _) (.inr rfl)
  refine ⟨⟨[first], .ran rfl rfl hpasses, fun heeds => ?_⟩, rfl⟩
  have hrunning : stopped.flow.stopped = false := heeds [] first [] rfl
  cases hrunning

end Pipeline

end EvidenceFlow
