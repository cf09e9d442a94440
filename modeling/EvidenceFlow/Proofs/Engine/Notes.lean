import EvidenceFlow.Engine
import EvidenceFlow.Proofs.Engine.AspectMerge

/-!
# Calls that are noted

A call of an engine is noted with what it found in the result object and with what it wrote there and
elsewhere. What the object holds after the call is made up of these two, and it is all of this that is
kept as the result of the call.
-/

namespace EvidenceFlow

/-! ## Values that result objects hold -/

namespace Flow

/-- The values in a result object of the flow. -/
def held (flow : Flow) (object : ObjectId) : Table String Json :=
  ((flow.object? object).map Aspect.properties).getD []

/-- A result object that is changed elsewhere holds the same values. -/
theorem held_modifyObject_of_same {f : Aspect → Aspect} (h : ∀ a, (f a).properties = a.properties)
    (flow : Flow) (id object : ObjectId) :
    (flow.modifyObject id f).held object = flow.held object := by
  unfold held object? modifyObject
  rw [List.getElem?_modify]
  by_cases hid : id = object
  · cases flow.objects[object]? <;> simp [hid, h]
  · simp [hid]

/-- Without a result object there is nothing to change. -/
theorem modifyObject_of_none {flow : Flow} {id : ObjectId} (h : flow.object? id = none)
    (f : Aspect → Aspect) : flow.modifyObject id f = flow := by
  have hout : flow.objects.length ≤ id := List.getElem?_eq_none_iff.mp h
  rw [modifyObject, List.modify_eq_self hout]

/-- A change of one result object leaves the others alone. -/
theorem held_modifyObject {flow : Flow} {id : ObjectId} {a : Aspect} (h : flow.object? id = some a)
    (f : Aspect → Aspect) (object : ObjectId) :
    (flow.modifyObject id f).held object =
      if object = id then (f a).properties else flow.held object := by
  unfold held object? modifyObject at *
  rw [List.getElem?_modify]
  by_cases hid : object = id
  · subst hid
    simp [h]
  · simp [hid, Ne.symm hid]

/-- A result object that is there holds its properties. -/
theorem held_of_object? {flow : Flow} {id : ObjectId} {a : Aspect} (h : flow.object? id = some a) :
    flow.held id = a.properties := by
  rw [held, h]
  rfl

/-- A result that is merged overwrites the values that are there. -/
theorem held_merge {flow : Flow} {id : ObjectId} {a : Aspect} (h : flow.object? id = some a)
    (result : Aspect) (object : ObjectId) :
    (flow.modifyObject id (·.merge result)).held object =
      if object = id then (flow.held object).putAll result.properties else flow.held object := by
  rw [held_modifyObject h]
  split
  · next hsame => rw [hsame, held_of_object? h, Aspect.properties_merge]
  · rfl

/-- A property that is set overwrites the value that is there. -/
theorem held_set {flow : Flow} {id : ObjectId} {a : Aspect} (h : flow.object? id = some a)
    (name : String) (value : Json) (object : ObjectId) :
    (flow.modifyObject id (·.set name value)).held object =
      if object = id then (flow.held object).put (Text.lowercase name) value
      else flow.held object := by
  rw [held_modifyObject h]
  split
  · next hsame =>
    rw [hsame, held_of_object? h]
    rfl
  · rfl

/-- A merged result brings along only values of its own. -/
theorem lookup_held_merge {flow : Flow} {id object : ObjectId} {result : Aspect} {name : String}
    {value : Json}
    (h : ((flow.modifyObject id (·.merge result)).held object).lookup name = some value) :
    (flow.held object).lookup name = some value ∨ (name, value) ∈ result.properties := by
  cases hobject : flow.object? id with
  | none =>
    left
    rwa [modifyObject_of_none hobject] at h
  | some a =>
    rw [held_merge hobject] at h
    split at h
    · rw [Table.lookup_putAll, Option.or_eq_some_iff] at h
      rcases h with hmerged | ⟨-, hheld⟩
      · right
        obtain ⟨front, back, hsplit, -⟩ := List.lookup_eq_some_iff.mp hmerged
        rw [← List.mem_reverse, hsplit]
        simp
      · exact Or.inl hheld
    · exact Or.inl h

/-- A new result object holds nothing. -/
theorem held_objectAt (flow : Flow) (key : String) (object : ObjectId) :
    (flow.objectAt key).2.held object = flow.held object := by
  unfold objectAt
  split
  · rfl
  · rfl
  · unfold held object? set
    rcases Nat.lt_trichotomy object flow.objects.length with hlt | heq | hgt
    · rw [List.getElem?_append_left hlt]
    · simp [heq]
    · have hend : (flow.objects ++ [({ key } : Aspect)]).length ≤ object := by
        rw [List.length_append]
        exact hgt
      rw [List.getElem?_eq_none hend, List.getElem?_eq_none (Nat.le_of_lt hgt)]

/-- A new result object changes neither number nor evidence. -/
theorem frame_objectAt (flow : Flow) (key : String) :
    (flow.objectAt key).2.id = flow.id ∧ (flow.objectAt key).2.evidence = flow.evidence := by
  unfold objectAt
  split <;> exact ⟨rfl, rfl⟩

end Flow

/-! ## Calls -/

/-- A value for a property of a result object, by its name in lower case. -/
structure Write where
  /-- The result object. -/
  object : ObjectId
  /-- The name. -/
  name : String
  /-- The value. -/
  value : Json

/-- What is noted of a call of an engine. -/
structure Note where
  /-- The number of the element. -/
  element : Nat
  /-- The number of the flow. -/
  flow : Nat
  /-- The fingerprint of the flow's evidence. -/
  key : Fingerprint
  /-- The result object of the engine. -/
  object : ObjectId
  /-- The values that the result object held before the call. -/
  found : Table String Json
  /-- What the engine wrote, one after the other. -/
  writes : List Write
  /-- Whether the call succeeded. -/
  succeeded : Bool

namespace Note

/-- The values that the call wrote into a result object. -/
def into (note : Note) (object : ObjectId) : List (String × Json) :=
  (note.writes.filter fun w => w.object = object).map fun w => (w.name, w.value)

/-- The value that the call wrote into the result object of its engine under a name. -/
def own? (note : Note) (name : String) : Option Json :=
  (note.into note.object).reverse.lookup name

/-- The value that the result object of the engine held under a name after the call. -/
def left? (note : Note) (name : String) : Option Json :=
  (note.own? name).or (note.found.lookup name)

/-- The call found no value in the result object but such as it replaced. -/
def Alone (note : Note) : Prop :=
  ∀ name, (note.found.lookup name).isSome → (note.own? name).isSome

/-- A value that a look-up finds among those written into a result object was written there. -/
theorem mem_writes_of_lookup {note : Note} {w : Write}
    (h : (note.into w.object).reverse.lookup w.name = some w.value) : w ∈ note.writes := by
  have hmem : (w.name, w.value) ∈ note.into w.object := by
    obtain ⟨front, back, hsplit, -⟩ := List.lookup_eq_some_iff.mp h
    rw [← List.mem_reverse, hsplit]
    simp
  obtain ⟨v, hv, heq⟩ := List.mem_map.mp hmem
  obtain ⟨hwritten, hobject⟩ := List.mem_filter.mp hv
  obtain rfl : v = w := by
    obtain ⟨_, _, _⟩ := v
    obtain ⟨_, _, _⟩ := w
    simp_all
  exact hwritten

/-- If the call was alone with the result object, the object held its writes after the call. -/
theorem Alone.left?_eq {note : Note} (h : note.Alone) (name : String) :
    note.left? name = note.own? name := by
  unfold left?
  cases hown : note.own? name with
  | some value => rfl
  | none =>
    cases hfound : note.found.lookup name with
    | none => rfl
    | some value =>
      have hsome := h name (by rw [hfound]; rfl)
      rw [hown] at hsome
      cases hsome

end Note

variable {υ : Type}

/-- A note tells what a call of an engine did to a scene. -/
structure Note.Tells (note : Note) (engine : Engine υ) (log : υ → List Note) (place : ObjectId)
    (scene after : Scene υ) (ended : Except Halt Unit) : Prop where
  /-- The call was for the flow. -/
  flow : note.flow = scene.flow.id
  /-- The fingerprint is that of the flow's evidence. -/
  key : note.key = .ofEvidence engine.filter scene.flow.evidence
  /-- The engine was called for the result object. -/
  object : note.object = place
  /-- The result object held these values before. -/
  found : note.found = scene.flow.held place
  /-- The call succeeded or did not. -/
  succeeded : note.succeeded = ended.toBool
  /-- The note was made. -/
  logged : log after.shared.user = log scene.shared.user ++ [note]
  /-- The writes are what became of the result objects. -/
  held : ∀ other, after.flow.held other = (scene.flow.held other).putAll (note.into other)
  /-- The flow kept its number. -/
  id : after.flow.id = scene.flow.id
  /-- The flow kept its evidence. -/
  evidence : after.flow.evidence = scene.flow.evidence
  /-- The stores of results were left alone. -/
  results : after.shared.results = scene.shared.results
  /-- The queue of jobs was left alone. -/
  queue : after.shared.queue = scene.shared.queue

/-- Each call of the engine is noted in a log under a number. Beyond the writes that are noted the
engine may do to the flow what it likes, but it cannot change the evidence, and it knows neither the
stores of results nor the queue of jobs. -/
def Engine.Notes (engine : Engine υ) (log : υ → List Note) (number : Nat) : Prop :=
  ∀ object scene, ∃ note : Note, note.element = number ∧
    note.Tells engine log object scene ((engine.run object).runOn scene).2
      ((engine.run object).runOn scene).1

/-- What the result object of an engine holds after a call. -/
theorem Note.Tells.lookup_held {note : Note} {engine : Engine υ} {log : υ → List Note}
    {place : ObjectId} {scene after : Scene υ} {ended : Except Halt Unit}
    (h : note.Tells engine log place scene after ended) (name : String) :
    (after.flow.held place).lookup name = note.left? name := by
  rw [h.held, Table.lookup_putAll, left?, own?, h.object, h.found]

end EvidenceFlow
