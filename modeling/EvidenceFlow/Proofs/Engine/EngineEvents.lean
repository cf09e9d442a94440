import EvidenceFlow.Proofs.Engine.TaskEvents
import EvidenceFlow.Script

/-!
# What engines do to tasks

Engines that follow a script or have fixed results stop their flow at most. From the point of view of a
task all else that they do happens elsewhere.
-/

namespace EvidenceFlow

variable {υ : Type}

/-! ## Scripted engines -/

/-- What an action does from the point of view of a task. -/
def Action.event (call : Script.Call) (scene : Scene υ) : Action → TaskEvent υ
  | stop => .stop
  | action => .elsewhere ((action.run call).runOn scene).2

/-- What the actions of a script do from the point of view of a task, until one of them fails. -/
def Action.events (call : Script.Call) : List Action → Scene υ → List (TaskEvent υ)
  | [], _ => []
  | action :: rest, scene =>
    action.event call scene ::
      match (action.run call).runOn scene with
      | (.ok (), after) => events call rest after
      | (.error _, _) => []

/-- What comes after a scene if something is done to the flow that has nothing to do with tasks. -/
structure Scene.Beside (scene after : Scene υ) : Prop where
  /-- The flow is not stopped meanwhile. -/
  stopped : after.flow.stopped = scene.flow.stopped
  /-- The flow will cancel the same tasks. -/
  hooks : after.flow.hooks = scene.flow.hooks
  /-- Result objects stay. -/
  objects : scene.flow.objects.length ≤ after.flow.objects.length
  /-- What is kept between flows stays as it is. -/
  shared : after.shared = scene.shared

namespace Action

/-- A change of the flow that leaves alone what has to do with tasks. -/
theorem preserves_onFlow {α : Type} {scene : Scene υ} {f : Flow → α × Flow}
    (h : ∀ flow, (f flow).2.stopped = flow.stopped ∧ (f flow).2.hooks = flow.hooks ∧
      flow.objects.length ≤ (f flow).2.objects.length) :
    (Act.onFlow f : Act υ α).Preserves scene.Beside := by
  intro before hbefore
  obtain ⟨hstopped, hhooks, hobjects⟩ := h before.flow
  exact ⟨hstopped.trans hbefore.stopped, hhooks.trans hbefore.hooks,
    Nat.le_trans hbefore.objects hobjects, hbefore.shared⟩

/-- A change of the flow that may fail and leaves alone what has to do with tasks. -/
theorem preserves_tryFlow {scene : Scene υ} {f : Flow → Except Fault Flow}
    (h : ∀ flow after, f flow = .ok after → after.stopped = flow.stopped ∧ after.hooks = flow.hooks ∧
      flow.objects.length ≤ after.objects.length) :
    (Act.tryFlow f : Act υ Unit).Preserves scene.Beside := by
  intro before hbefore
  rw [Act.runOn_tryFlow]
  split
  · next after hafter =>
    obtain ⟨hstopped, hhooks, hobjects⟩ := h before.flow after hafter
    exact ⟨hstopped.trans hbefore.stopped, hhooks.trans hbefore.hooks,
      Nat.le_trans hbefore.objects hobjects, hbefore.shared⟩
  · exact hbefore

/-- Giving a property a value leaves alone what has to do with tasks. -/
theorem preserves_setOn (call : Script.Call) (name : String) (value : Json) (scene : Scene υ) :
    (setOn call name value : Act υ Unit).Preserves scene.Beside := by
  rw [setOn]
  split
  · exact preserves_onFlow fun flow => ⟨rfl, rfl, by simp [Flow.modifyObject]⟩
  · exact .pure ()

/-- Reading evidence leaves alone what has to do with tasks. -/
theorem preserves_evidence (call : Script.Call) (name : String) (scene : Scene υ) :
    (evidence call name : Act υ Json).Preserves scene.Beside := by
  refine .bind .get fun before => ?_
  split
  · exact .pure _
  · exact .fail _

/-- An action other than stopping the flow has nothing to do with tasks. -/
theorem beside_run (call : Script.Call) {action : Action} (haction : action ≠ .stop)
    (scene : Scene υ) : (action.run call : Act υ Unit).Preserves scene.Beside := by
  cases action with
  | stop => exact absurd rfl haction
  | setDatum key datum => exact preserves_onFlow fun _ => ⟨rfl, rfl, Nat.le_refl _⟩
  | getOrAdd key datum =>
    refine .bind (preserves_onFlow fun flow => ?_) fun result => .discard (.ofExcept result)
    rw [Flow.getOrAdd]
    split <;> exact ⟨rfl, rfl, Nat.le_refl _⟩
  | setProperty name value => exact preserves_setOn call name value scene
  | copyToDatum name key =>
    exact .bind (preserves_evidence call name scene) fun _ =>
      preserves_onFlow fun _ => ⟨rfl, rfl, Nat.le_refl _⟩
  | copyToProperty name property =>
    exact .bind (preserves_evidence call name scene) fun value => preserves_setOn call property value scene
  | count name => exact preserves_setOn call name _ scene
  | addIncident incident => exact preserves_onFlow fun _ => ⟨rfl, rfl, Nat.le_refl _⟩
  | addEvidence key value =>
    refine preserves_tryFlow fun flow after hafter => ?_
    rw [Flow.addEvidence] at hafter
    split at hafter <;> cases hafter
    exact ⟨rfl, rfl, Nat.le_refl _⟩
  | process =>
    refine preserves_tryFlow fun flow after hafter => ?_
    rw [Flow.begin] at hafter
    split at hafter <;> cases hafter
    exact ⟨rfl, rfl, Nat.le_refl _⟩
  | need key => exact .bind .get fun before => .discard (.ofExcept _)
  | fail fault => exact .fail fault
  | failOnCall number fault =>
    rw [run]
    split
    · exact .fail fault
    · exact .pure ()
  | panic message => exact .throw _

/-- An action is what it does from the point of view of a task. -/
theorem on_event (call : Script.Call) (action : Action) (scene : Scene υ) :
    (action.event call scene).on scene = ((action.run call).runOn scene).2 := by
  by_cases haction : action = .stop
  · subst haction
    rfl
  · have hevent : action.event call scene = .elsewhere ((action.run call).runOn scene).2 := by
      cases action with
      | stop => exact absurd rfl haction
      | _ => rfl
    have hbeside := beside_run call haction scene scene ⟨rfl, rfl, Nat.le_refl _, rfl⟩
    rw [hevent]
    exact Scene.amend_eq hbeside.stopped hbeside.hooks hbeside.objects
      (congrArg Shared.tasks hbeside.shared)

/-- Actions are what they do from the point of view of a task. -/
theorem onAll_events (call : Script.Call) (actions : List Action) (scene : Scene υ) :
    TaskEvent.onAll scene (events call actions scene) =
      ((actions.forM (run call)).runOn scene).2 := by
  induction actions generalizing scene with
  | nil => rfl
  | cons action rest ih =>
    have hfirst := action.on_event call scene
    change _ = ((action.run call >>= fun _ => rest.forM (run call)).runOn scene).2
    rw [Act.runOn_bind, events]
    rcases hrun : (action.run call).runOn scene with ⟨_ | _, after⟩ <;> rw [hrun] at hfirst
    · exact hfirst
    · exact (congrArg (TaskEvent.onAll · _) hfirst).trans (ih after)

/-- No action brings the result of a task's work. -/
theorem settles_of_mem_events {call : Script.Call} {actions : List Action} {scene : Scene υ}
    {event : TaskEvent υ} (h : event ∈ events call actions scene) (task : TaskId) :
    event.settles task = false := by
  induction actions generalizing scene with
  | nil => cases h
  | cons action rest ih =>
    rw [events, List.mem_cons] at h
    rcases h with rfl | h
    · cases action <;> rfl
    · rcases hrun : (action.run call).runOn scene with ⟨_ | _, after⟩ <;> rw [hrun] at h
      · cases h
      · exact ih h

/-- Whatever actions do can happen. -/
theorem possible_events (call : Script.Call) (actions : List Action) (scene : Scene υ) :
    TaskEvent.Possible scene (events call actions scene) := by
  induction actions generalizing scene with
  | nil => trivial
  | cons action rest ih =>
    have hfirst := action.on_event call scene
    have hmade : (action.event call scene).IsMade scene := by cases action <;> trivial
    rw [events]
    refine ⟨hmade, ?_⟩
    rw [hfirst]
    rcases (action.run call).runOn scene with ⟨_ | _, after⟩
    · trivial
    · exact ih after

end Action

namespace Script

/-- The scene once a call is counted and noted. -/
def noted (script : Script) (scene : Scene Journal) : Scene Journal :=
  { scene with shared :=
      { scene.shared with
        user := (scene.shared.user.call script.number).2.note script.number script.name } }

/-- A call is counted and noted before the actions. -/
theorem runOn_run (script : Script) (object : Option ObjectId) (scene : Scene Journal) :
    (script.run object).runOn scene =
      (script.actions.forM (Action.run
        { key := script.key, number := (scene.shared.user.call script.number).1, object })).runOn
        (script.noted scene) := by
  rw [run, Act.runOn_bind, Act.runOn_onShared]
  rfl

/-- What a call of a scripted engine does from the point of view of a task. -/
def events (script : Script) (object : ObjectId) (scene : Scene Journal) : List (TaskEvent Journal) :=
  .elsewhere (script.noted scene) ::
    Action.events
      { key := script.key, number := (scene.shared.user.call script.number).1, object := some object }
      script.actions (script.noted scene)

/-- A scripted engine does to tasks what may happen to them in any case. -/
theorem does (script : Script) : script.toEngine.Does script.events where
  onAll object scene := by
    have hnoted : scene.amend (script.noted scene) = script.noted scene :=
      Scene.amend_eq rfl rfl (Nat.le_refl _) rfl
    refine (congrArg Prod.snd (script.runOn_run (some object) scene)).trans ?_
    rw [events, TaskEvent.onAll, List.foldl_cons, TaskEvent.on, hnoted]
    exact (Action.onAll_events _ _ _).symm
  possible object scene := by
    have hnoted : scene.amend (script.noted scene) = script.noted scene :=
      Scene.amend_eq rfl rfl (Nat.le_refl _) rfl
    refine ⟨trivial, ?_⟩
    rw [TaskEvent.on, hnoted]
    exact Action.possible_events _ _ _
  spares object scene event hevent task _ := by
    rcases List.mem_cons.mp hevent with rfl | hevent
    · rfl
    · exact Action.settles_of_mem_events hevent task

end Script

/-! ## Engines with fixed results -/

namespace FixedEngine

/-- The scene once a call is counted. -/
def counted (e : FixedEngine) (scene : Scene Journal) : Scene Journal :=
  { scene with shared := { scene.shared with user := (scene.shared.user.call e.number).2 } }

/-- Once a call is counted, only the result object changes. -/
theorem beside_run (e : FixedEngine) (object : ObjectId) (scene : Scene Journal) :
    (e.counted scene).Beside ((e.run object).runOn scene).2 := by
  have hstart : (e.counted scene).Beside (e.counted scene) := ⟨rfl, rfl, Nat.le_refl _, rfl⟩
  rw [run, Act.runOn_bind, Act.runOn_discard, Act.runOn_onShared]
  dsimp only
  change (e.counted scene).Beside (Act.runOn _ (e.counted scene)).2
  cases e.breaksOff with
  | true => exact hstart
  | false =>
    cases e.failure with
    | some reason => exact hstart
    | none => exact ⟨rfl, rfl, Nat.le_of_eq (List.length_modify ..).symm, rfl⟩

/-- An engine with fixed results does to tasks what may happen to them in any case. -/
theorem does (e : FixedEngine) :
    e.toEngine.Does fun object scene => [.elsewhere ((e.run object).runOn scene).2] where
  onAll object scene := by
    have hbeside := e.beside_run object scene
    exact (Scene.amend_eq hbeside.stopped hbeside.hooks hbeside.objects
      (congrArg Shared.tasks hbeside.shared)).symm
  possible _ _ := ⟨trivial, trivial⟩
  spares object scene event hevent task _ := by
    obtain rfl := List.mem_singleton.mp hevent
    rfl

end FixedEngine

end EvidenceFlow
