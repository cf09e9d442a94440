import Mathlib.Logic.Function.Basic
import EvidenceFlow.Engine.Course
import EvidenceFlow.Proofs.Engine.AspectMerge

/-!
# How an engine deals with a flow

An engine whose writes and whose end are determined by the fingerprint of the evidence is run, or its
result is taken from the store. Here both are written out for a flow that holds nothing under the key of
the engine, and for engines that are not run apart from the flow.
-/

namespace EvidenceFlow

/-! ## New result objects -/

/-- The last entry of a list is changed. -/
theorem modify_concat {α : Type} (l : List α) (a : α) (f : α → α) :
    (l ++ [a]).modify l.length f = l ++ [f a] := by
  induction l with
  | nil => rfl
  | cons b rest ih => exact congrArg (List.cons b) ih

namespace Flow

/-- The flow with a new result object under a key. -/
def fill (flow : Flow) (key : String) (a : Aspect) : Flow :=
  { flow with
    data := flow.data.put key (.object flow.objects.length)
    objects := flow.objects ++ [a] }

/-- The result object under a key that holds nothing is a new one. -/
theorem objectAt_of_none {flow : Flow} {key : String} (h : flow.datum? key = none) :
    flow.objectAt key = (.ok flow.objects.length, flow.fill key { key }) := by
  rw [objectAt, h]
  rfl

/-- What is done to the new object could have been done before. -/
theorem modifyObject_fill (flow : Flow) (key : String) (a : Aspect) (f : Aspect → Aspect) :
    (flow.fill key a).modifyObject flow.objects.length f = flow.fill key (f a) := by
  simp only [modifyObject, fill, modify_concat]

/-- The new object is found in its place. -/
theorem object?_fill (flow : Flow) (key : String) (a : Aspect) :
    (flow.fill key a).object? flow.objects.length = some a := by
  simp [object?, fill]

/-- The new object is found under its key. -/
theorem objectAt_fill (flow : Flow) (key : String) (a : Aspect) :
    (flow.fill key a).objectAt key = (.ok flow.objects.length, flow.fill key a) := by
  have hthere : (flow.fill key a).datum? key = some (.object flow.objects.length) := by
    rw [datum?, fill, Table.lookup_put, if_pos rfl]
  rw [objectAt, hthere]

/-- Other keys hold what they held. -/
theorem datum?_fill_of_ne (flow : Flow) {key other : String} (h : other ≠ key) (a : Aspect) :
    (flow.fill key a).datum? other = flow.datum? other := by
  rw [datum?, fill, Table.lookup_put, if_neg h, datum?]

end Flow

/-! ## Determined engines -/

/-- What a call of an engine does: the properties that it writes, one after the other, and how it ends. -/
structure Outcome where
  /-- The properties. -/
  writes : List (String × Json) := []
  /-- How the call ends. -/
  result : Except Fault Unit := .ok ()

namespace Outcome

/-- The result object after the writes. -/
def applyTo (outcome : Outcome) (a : Aspect) : Aspect :=
  outcome.writes.foldl (fun a write => a.set write.1 write.2) a

/-- How the act of the call ends. -/
def ended (outcome : Outcome) : Except Halt Unit := outcome.result.mapError .fault

/-- Writes leave a result object tidy. -/
theorem tidy_applyTo (outcome : Outcome) {a : Aspect} (h : a.Tidy) : (outcome.applyTo a).Tidy := by
  unfold applyTo
  induction outcome.writes generalizing a with
  | nil => exact h
  | cons write rest ih => exact ih (h.set write.1 write.2)

/-- Writes change neither key nor tasks of a result object. -/
theorem frame_applyTo (outcome : Outcome) (a : Aspect) :
    (outcome.applyTo a).key = a.key ∧ (outcome.applyTo a).tasks = a.tasks := by
  unfold applyTo
  induction outcome.writes generalizing a with
  | nil => exact ⟨rfl, rfl⟩
  | cons write rest ih => exact ih (a.set write.1 write.2)

end Outcome

namespace Engine

variable {υ : Type}

/-- The writes and the end of a call are determined by the fingerprint of the evidence. Beyond its
writes the engine changes only what it brought along. -/
def Determined (engine : Engine υ) (outcome : Fingerprint → Outcome) : Prop :=
  ∀ object scene, ∃ user,
    (engine.run object).runOn scene =
      ((outcome (.ofEvidence engine.filter scene.flow.evidence)).ended,
        { flow := scene.flow.modifyObject object
            (outcome (.ofEvidence engine.filter scene.flow.evidence)).applyTo
          shared := { scene.shared with user } })

/-- The engine notes each of its calls under a number in a log, by the fingerprint of the evidence. -/
def Logs (engine : Engine υ) (log : υ → Nat → List Fingerprint) (number : Nat) : Prop :=
  ∀ object scene,
    log ((engine.run object).runOn scene).2.shared.user =
      Function.update (log scene.shared.user) number
        (log scene.shared.user number ++ [.ofEvidence engine.filter scene.flow.evidence])

/-- The result object as the engine finds it if it is the first to write. -/
def opened (engine : Engine υ) : Aspect :=
  (({ key := engine.key } : Aspect).addEngine engine.name).addProperties engine.properties

/-- The result object that the engine leaves if it is the only one to write. -/
def made (engine : Engine υ) (outcome : Outcome) : Aspect := outcome.applyTo engine.opened

/-- Declarations change neither key nor tasks of a result object. -/
theorem frame_addProperties (properties : List Property) (a : Aspect) :
    (a.addProperties properties).key = a.key ∧ (a.addProperties properties).tasks = a.tasks := by
  unfold Aspect.addProperties
  induction properties generalizing a with
  | nil => exact ⟨rfl, rfl⟩
  | cons property rest ih =>
    have hframe : (a.addProperty property).key = a.key ∧ (a.addProperty property).tasks = a.tasks := by
      rw [Aspect.addProperty]
      split <;> exact ⟨rfl, rfl⟩
    rw [List.foldl_cons, (ih _).1, (ih _).2]
    exact hframe

/-- The engine leaves a tidy result object of its key, without tasks. -/
theorem made_spec (engine : Engine υ) (outcome : Outcome) :
    (engine.made outcome).Tidy ∧ (engine.made outcome).key = engine.key ∧
      (engine.made outcome).tasks = [] := by
  have hopened : engine.opened.Tidy :=
    ((Aspect.tidy_new engine.key).addEngine engine.name).addProperties engine.properties
  have hframe := frame_addProperties engine.properties
    (({ key := engine.key } : Aspect).addEngine engine.name)
  refine ⟨outcome.tidy_applyTo hopened, ?_, ?_⟩
  · exact (outcome.frame_applyTo _).1.trans hframe.1
  · exact (outcome.frame_applyTo _).2.trans hframe.2

/-- A result that is kept is what the engine left. -/
theorem snapshot_made (engine : Engine υ) (outcome : Outcome) :
    (engine.made outcome).snapshot = engine.made outcome := by
  obtain ⟨-, -, htasks⟩ := engine.made_spec outcome
  rw [Aspect.snapshot, ← htasks]

/-- A new object that takes over a result that is kept is what the engine left. -/
theorem merge_snapshot_made (engine : Engine υ) (outcome : Outcome) :
    ({ key := engine.key } : Aspect).merge (engine.made outcome).snapshot = engine.made outcome := by
  obtain ⟨htidy, hkey, -⟩ := engine.made_spec outcome
  rw [← hkey, htidy.merge_new, snapshot_made]

end Engine

/-! ## Processing -/

namespace EngineElement

variable {υ : Type}

/-- What is found in the store, and what is kept between flows then. -/
def lookIn (e : EngineElement υ) (key : Option Fingerprint) (shared : Shared υ) :
    Found Aspect × Shared υ :=
  match key, shared.results.lookup e.number with
  | some key, some store =>
    ((store.get key).1, { shared with results := shared.results.put e.number (store.get key).2 })
  | _, _ => (.nothing, shared)

/-- Results are looked for under the fingerprint of the flow's evidence, if they are kept at all. -/
theorem keyOf_eq_some {e : EngineElement υ} {flow : Flow} {key : Fingerprint}
    (h : e.keyOf flow = some key) :
    e.cached = true ∧ key = .ofEvidence e.engine.filter flow.evidence := by
  unfold keyOf at h
  split at h
  · next hcached => exact ⟨hcached, (Option.some.inj h).symm⟩
  · cases h

/-- A result is found under a fingerprint. -/
theorem exists_key_of_found {e : EngineElement υ} {key : Option Fingerprint} {shared : Shared υ}
    {result : Aspect} (h : (e.lookIn key shared).1 = .value result) : ∃ k, key = some k := by
  cases key with
  | none => cases h
  | some k => exact ⟨k, rfl⟩

/-- A look-up is one in what is kept between flows. -/
theorem runOn_lookUp (e : EngineElement υ) (key : Option Fingerprint) (scene : Scene υ) :
    (e.lookUp key).runOn scene =
      (.ok (e.lookIn key scene.shared).1, { scene with shared := (e.lookIn key scene.shared).2 }) := by
  unfold lookUp lookIn
  refine (Act.runOn_onShared _ _).trans ?_
  cases key with
  | none => rfl
  | some key => cases scene.shared.results.lookup e.number <;> rfl

/-- The object that is kept is the one in its place. -/
theorem runOn_keep (e : EngineElement υ) (key : Option Fingerprint) {object : ObjectId}
    {scene : Scene υ} {a : Aspect} (h : scene.flow.object? object = some a) :
    (e.keep key object).runOn scene =
      (.ok (), { scene with shared := e.keepIn key a scene.shared }) := by
  unfold keep keepIn
  rw [Act.runOn_modify, h]
  cases key with
  | none => rfl
  | some key => cases scene.shared.results.lookup e.number <;> rfl

/-- A look-up takes from what is kept between flows nothing that engines brought along. -/
theorem user_lookIn (e : EngineElement υ) (key : Option Fingerprint) (shared : Shared υ) :
    (e.lookIn key shared).2.user = shared.user := by
  unfold lookIn
  split <;> rfl

/-- A result that is kept leaves alone what engines brought along. -/
theorem user_keepIn (e : EngineElement υ) (key : Option Fingerprint) (a : Aspect)
    (shared : Shared υ) : (e.keepIn key a shared).user = shared.user := by
  unfold keepIn
  split <;> rfl

variable {e : EngineElement υ}

/-- A result from the store is merged into the object under the key, unless the key is that of other
data. -/
theorem runOn_process_of_found {flow : Flow} {shared : Shared υ} {result : Aspect}
    (hfound : (e.lookIn (e.keyOf flow) shared).1 = .value result) :
    e.process.runOn { flow, shared } =
      match flow.objectAt e.engine.key with
      | (.ok object, after) =>
        (.ok (), { flow := after.modifyObject object (·.merge result)
                   shared := (e.lookIn (e.keyOf flow) shared).2 })
      | (.error fault, after) =>
        (.error (.fault fault), { flow := after, shared := (e.lookIn (e.keyOf flow) shared).2 }) := by
  rw [process, Act.runOn_bind, Act.runOn_get]
  simp only
  rw [Act.runOn_bind, runOn_lookUp, hfound]
  simp only
  rw [install, Act.runOn_bind, Act.objectAt, Act.runOn_bind, Act.runOn_onFlow]
  rcases flow.objectAt e.engine.key with ⟨fault | object, after⟩ <;> rfl

/-- A result from the store is merged into a new object. -/
theorem runOn_process_of_hit {flow : Flow} {shared : Shared υ} {result : Aspect}
    (hnone : flow.datum? e.engine.key = none)
    (hfound : (e.lookIn (e.keyOf flow) shared).1 = .value result) :
    e.process.runOn { flow, shared } =
      (.ok (),
        { flow := flow.fill e.engine.key (({ key := e.engine.key } : Aspect).merge result)
          shared := (e.lookIn (e.keyOf flow) shared).2 }) := by
  rw [runOn_process_of_found hfound, Flow.objectAt_of_none hnone]
  simp only [Flow.modifyObject_fill]

/-- To compute a result is to find the result object, or to make it, to note there what the engine declares,
and to let it run: apart from the flow, or at once, and then what it leaves is kept. -/
theorem runOn_compute (e : EngineElement υ) (key : Option Fingerprint) {flow made : Flow}
    {object : ObjectId} (hmade : flow.objectAt e.engine.key = (.ok object, made)) (shared : Shared υ) :
    (e.compute key).runOn { flow, shared } =
      (match e.dispatch with
        | some dispatch => e.runLazily dispatch object key
        | none => e.engine.run object >>= fun _ => e.keep key object).runOn
        { flow := made.modifyObject object fun a =>
            (a.addEngine e.engine.name).addProperties e.engine.properties
          shared } := by
  rw [compute, Act.runOn_bind, Act.objectAt, Act.runOn_bind, Act.runOn_onFlow, hmade]
  rfl

/-- Without a result from the store a new object is made, the engine writes into it, and what it leaves
is kept if it succeeded. -/
theorem runOn_compute_of_determined (hdirect : e.dispatch = none)
    {outcome : Fingerprint → Outcome} (hdetermined : e.engine.Determined outcome)
    (key : Option Fingerprint) {flow : Flow} (shared : Shared υ)
    (hnone : flow.datum? e.engine.key = none) :
    ∃ user,
      (∀ log, e.engine.Logs log e.number → log user =
        Function.update (log shared.user) e.number
          (log shared.user e.number ++ [.ofEvidence e.engine.filter flow.evidence])) ∧
      (e.compute key).runOn { flow, shared } =
        let result := outcome (.ofEvidence e.engine.filter flow.evidence)
        (result.ended,
          { flow := flow.fill e.engine.key (e.engine.made result)
            shared :=
              if result.result.toBool then e.keepIn key (e.engine.made result) { shared with user }
              else { shared with user } }) := by
  have hopened : ((flow.fill e.engine.key { key := e.engine.key }).modifyObject flow.objects.length
      fun a => (a.addEngine e.engine.name).addProperties e.engine.properties) =
      flow.fill e.engine.key e.engine.opened := Flow.modifyObject_fill ..
  obtain ⟨user, hrun⟩ := hdetermined flow.objects.length
    { flow := flow.fill e.engine.key e.engine.opened, shared }
  refine ⟨user, ?_, ?_⟩
  · intro log hlogs
    have hlog := hlogs flow.objects.length
      { flow := flow.fill e.engine.key e.engine.opened, shared }
    rw [hrun] at hlog
    exact hlog
  · rw [e.runOn_compute key (Flow.objectAt_of_none hnone), hopened, hdirect]
    simp only
    rw [Act.runOn_bind, hrun]
    simp only [Flow.modifyObject_fill]
    have hevidence : (flow.fill e.engine.key e.engine.opened).evidence = flow.evidence := rfl
    rw [hevidence, Outcome.ended]
    cases (outcome (.ofEvidence e.engine.filter flow.evidence)).result with
    | ok _ =>
      exact e.runOn_keep key (flow.object?_fill e.engine.key (e.engine.made _))
    | error fault => rfl

/-- An engine that succeeds without an executor leaves its result object to be kept. -/
theorem runOn_compute_of_direct (hdirect : e.dispatch = none) {key : Option Fingerprint}
    {flow made after : Flow} {shared left : Shared υ} {object : ObjectId} {a : Aspect}
    (hmade : flow.objectAt e.engine.key = (.ok object, made))
    (hrun : (e.engine.run object).runOn
      { flow := made.modifyObject object fun a =>
          (a.addEngine e.engine.name).addProperties e.engine.properties
        shared } = (.ok (), { flow := after, shared := left }))
    (hleft : after.object? object = some a) :
    (e.compute key).runOn { flow, shared } =
      (.ok (), { flow := after, shared := e.keepIn key a left }) := by
  rw [e.runOn_compute key hmade, hdirect]
  simp only
  rw [Act.runOn_bind, hrun]
  exact e.runOn_keep key hleft

/-- Without a result from the store the result is computed. -/
theorem runOn_process_of_miss {flow : Flow} {shared : Shared υ}
    (hmiss : ∀ result, (e.lookIn (e.keyOf flow) shared).1 ≠ .value result) :
    e.process.runOn { flow, shared } =
      (e.compute (e.keyOf flow)).runOn { flow, shared := (e.lookIn (e.keyOf flow) shared).2 } := by
  rw [process, Act.runOn_bind, Act.runOn_get]
  simp only
  rw [Act.runOn_bind, runOn_lookUp]
  cases hfound : (e.lookIn (e.keyOf flow) shared).1 with
  | nothing => rfl
  | value result => exact absurd hfound (hmiss result)
  | foreign => rfl

end EngineElement

end EvidenceFlow
