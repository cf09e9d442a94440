import EvidenceFlow.Proofs.Pipeline.Acts
import Mathlib.Logic.Function.Basic

/-!
# What can be read of a scene

The numbers of result objects, the order in which keys came and the objects that no key holds tell nothing
about a flow. What is left is its reading: what is held under each key, which keys hold one and the same
object, and everything else. The queue of jobs names objects by their numbers and is left out as well.
-/

namespace EvidenceFlow

variable {υ α β : Type}

/-! ## Readings -/

/-- What is held under a key, with a result object given by what is in it. -/
inductive Holding where
  /-- A text. -/
  | text (s : String)
  /-- A natural number. -/
  | number (n : Nat)
  /-- A value. -/
  | json (value : Json)
  /-- A result object. -/
  | object (content : Option Aspect)

namespace Flow

/-- What a datum stands for in the flow. -/
def holding (flow : Flow) : Datum → Holding
  | .text s => .text s
  | .number n => .number n
  | .json value => .json value
  | .object id => .object (flow.object? id)

/-- What is held under a key. -/
def holding? (flow : Flow) (key : String) : Option Holding := (flow.datum? key).map flow.holding

/-- The flow holds a result object under a key. -/
def HoldsObject (flow : Flow) (key : String) (id : ObjectId) : Prop := flow.datum? key = some (.object id)

/-- Two keys hold one result object. -/
def Shares (flow : Flow) (key other : String) : Prop :=
  key ≠ other ∧ ∃ id, flow.HoldsObject key id ∧ flow.HoldsObject other id

end Flow

/-- What can be read of a scene. -/
@[ext] structure Reading (υ : Type) where
  /-- What is held under each key. -/
  holdings : String → Option Holding
  /-- Which keys hold one result object. -/
  shares : String → String → Prop
  /-- All but the data of the flow and the queue of jobs. -/
  rest : Scene υ

namespace Scene

/-- The scene without the data of the flow and without the queue of jobs. -/
def rest (scene : Scene υ) : Scene υ where
  flow := { scene.flow with data := [], objects := [] }
  shared := { scene.shared with queue := [] }

/-- What can be read of the scene. -/
def reading (scene : Scene υ) : Reading υ where
  holdings := scene.flow.holding?
  shares := scene.flow.Shares
  rest := scene.rest

/-- Every result object that a key holds is there. -/
def Grounded (scene : Scene υ) : Prop :=
  ∀ key id, scene.flow.HoldsObject key id → id < scene.flow.objects.length

/-- Where the data and the objects stay, so does all that can be read of them. -/
theorem reading_of_data {s t : Scene υ} (h : t.flow.data = s.flow.data ∧ t.flow.objects = s.flow.objects) :
    (t.Grounded ↔ s.Grounded) ∧ t.reading = { s.reading with rest := t.rest } := by
  obtain ⟨hdata, hobjects⟩ := h
  have hdatum : t.flow.datum? = s.flow.datum? := funext fun key => congrArg (List.lookup key) hdata
  have hobject : t.flow.object? = s.flow.object? := funext fun id => congrArg (·[id]?) hobjects
  have hholding : t.flow.holding = s.flow.holding := by
    funext datum
    cases datum <;> simp only [Flow.holding, hobject]
  refine ⟨?_, Reading.ext ?_ ?_ rfl⟩
  · simp only [Grounded, Flow.HoldsObject, hdatum, hobjects]
  · funext key
    simp only [reading, Flow.holding?, hdatum, hholding]
  · funext key other
    simp only [reading, Flow.Shares, Flow.HoldsObject, hdatum]

/-- Two scenes cannot be told apart by what can be read of them. -/
structure Alike (s t : Scene υ) : Prop where
  /-- The objects are there in one. -/
  left : s.Grounded
  /-- And in the other. -/
  right : t.Grounded
  /-- The same can be read. -/
  reading_eq : s.reading = t.reading

namespace Alike

variable {s t : Scene υ}

/-- Apart from data, objects and jobs the scenes are the same. -/
theorem rest_eq (h : Alike s t) : s.rest = t.rest := congrArg Reading.rest h.reading_eq

/-- The same incidents were reported. -/
theorem incidents_eq (h : Alike s t) : s.flow.incidents = t.flow.incidents :=
  congrArg (·.flow.incidents) h.rest_eq

/-- The flow of one is stopped if that of the other is. -/
theorem stopped_eq (h : Alike s t) : s.flow.stopped = t.flow.stopped :=
  congrArg (·.flow.stopped) h.rest_eq

/-- The same is held under each key. -/
theorem holding?_eq (h : Alike s t) (key : String) : s.flow.holding? key = t.flow.holding? key :=
  congrFun (congrArg Reading.holdings h.reading_eq) key

/-- Scenes stay alike if their data and objects stay and the rest changes in the same way. -/
theorem of_rest {s' t' : Scene υ} (h : Alike s t)
    (hs : s'.flow.data = s.flow.data ∧ s'.flow.objects = s.flow.objects)
    (ht : t'.flow.data = t.flow.data ∧ t'.flow.objects = t.flow.objects) (hrest : s'.rest = t'.rest) :
    Alike s' t' := by
  obtain ⟨hground, hreading⟩ := reading_of_data hs
  obtain ⟨hground', hreading'⟩ := reading_of_data ht
  refine ⟨hground.mpr h.left, hground'.mpr h.right, ?_⟩
  rw [hreading, hreading', h.reading_eq, hrest]

end Alike

end Scene

/-! ## Acts that go by readings -/

/-- The act ends in the same way on scenes that cannot be told apart, and leaves scenes of that kind. -/
def Act.GoesByReading (act : Act υ α) : Prop :=
  ∀ s t, Scene.Alike s t →
    (act.runOn s).1 = (act.runOn t).1 ∧ Scene.Alike (act.runOn s).2 (act.runOn t).2

namespace Act.GoesByReading

/-- To end with a result goes by nothing. -/
theorem pure (x : α) : (pure x : Act υ α).GoesByReading := fun _ _ h => ⟨rfl, h⟩

/-- To break off goes by nothing. -/
theorem throw (halt : Halt) : (throw halt : Act υ α).GoesByReading := fun _ _ h => ⟨rfl, h⟩

/-- To end with a fault goes by nothing. -/
theorem fail (fault : Fault) : (fail fault : Act υ α).GoesByReading := fun _ _ h => ⟨rfl, h⟩

/-- To take a result as it is goes by nothing. -/
theorem ofExcept (result : Except Fault α) : (ofExcept result : Act υ α).GoesByReading := by
  cases result with
  | ok x => exact pure x
  | error fault => exact fail fault

/-- Acts that go by readings do so one after the other. -/
theorem bind {act : Act υ α} {next : α → Act υ β} (hact : act.GoesByReading)
    (hnext : ∀ x, (next x).GoesByReading) : (act >>= next).GoesByReading := by
  intro s t h
  have hfirst := hact s t h
  rw [runOn_bind, runOn_bind]
  rcases hs : act.runOn s with ⟨ended, after⟩
  rcases ht : act.runOn t with ⟨ended', after'⟩
  rw [hs, ht] at hfirst
  obtain ⟨rfl, halike⟩ := hfirst
  cases ended with
  | ok x => exact hnext x after after' halike
  | error halt => exact ⟨rfl, halike⟩

/-- What leaves the data alone, and goes by the rest only, goes by readings. -/
theorem modifyGet {f : Scene υ → α × Scene υ}
    (hdata : ∀ s, (f s).2.flow.data = s.flow.data ∧ (f s).2.flow.objects = s.flow.objects)
    (hrest : ∀ s t, s.rest = t.rest → (f s).1 = (f t).1 ∧ (f s).2.rest = (f t).2.rest) :
    (modifyGet f : Act υ α).GoesByReading := by
  intro s t h
  obtain ⟨hvalue, hlater⟩ := hrest s t h.rest_eq
  exact ⟨congrArg Except.ok hvalue, h.of_rest (hdata s) (hdata t) hlater⟩

end Act.GoesByReading

end EvidenceFlow
