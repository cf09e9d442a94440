import EvidenceFlow.Aspect.Typed
import EvidenceFlow.Element

/-!
# Trackers as elements

An element that asks a tracker about every flow and leaves the decision as a property. It may stop the
flow when a repeat is declined. The element declares the evidence of its filter; the session, which may
tell fingerprints apart as well, is not part of that.
-/

namespace EvidenceFlow

open Text

/-- A tracker as an element. -/
structure TrackingElement where
  /-- The number by which the element is known. -/
  number : Nat
  /-- The key of its result object. -/
  key : String
  /-- The evidence that it declares to consume. -/
  filter : Filter
  /-- Whether a declined repeat stops the flow. -/
  stopOnRepeat : Bool
  /-- Whether its clock moves; a clock that does not always reads zero. -/
  clockMoves : Bool := true

namespace TrackingElement

/-- The property that holds the decision. -/
def decisionName : String := "track"

/-- The element of the settings, and its tracker without sightings, if the settings are valid. -/
def build (host : Host) (number : Nat) (key : String) (filter : Filter) (settings : TrackerSettings)
    (clockMoves : Bool) : Except Fault (TrackingElement × IntervalTracker) := do
  let tracker ← IntervalTracker.make host settings filter
  return ({ number, key, filter, stopOnRepeat := settings.stopOnRepeat, clockMoves }, tracker)

/-- What is kept between flows, with the tracker of the element. -/
def addTo {υ : Type} (e : TrackingElement) (tracker : IntervalTracker) (shared : Shared υ) : Shared υ :=
  { shared with trackers := shared.trackers.put e.number tracker }

/-- The properties that the element declares. -/
def properties (e : TrackingElement) : List Property :=
  [{ name := decisionName, elementKey := e.key }]

/-- Asks the tracker about the flow; without one every event is tracked. -/
def decide {υ : Type} (e : TrackingElement) : Act υ Bool := do
  let flow := (← get).flow
  Act.onShared fun shared =>
    match shared.trackers.lookup e.number with
    | none => (true, shared)
    | some tracker =>
      let (tracked, tracker) := tracker.track flow.evidence (if e.clockMoves then shared.now else 0)
      (tracked, { shared with trackers := shared.trackers.put e.number tracker })

/-- Asks the tracker about the flow, leaves the decision, and may stop the flow. -/
def process {υ : Type} (e : TrackingElement) : Act υ Unit := do
  let tracked ← e.decide
  let object ← Act.objectAt e.key
  Act.modifyObject object fun aspect =>
    (aspect.addProperties e.properties).set decisionName (.bool tracked)
  if !tracked && e.stopOnRepeat then Act.stop

/-- The decision about a flow that has been processed. -/
def decision (e : TrackingElement) (flow : Flow) (tasks : Tasks) : Except Fault Json := do
  let (_, aspect) ← flow.getObject e.key
  aspect.getAs tasks .bool decisionName

/-- The tracker as an element of a pipeline. -/
def toElement {υ : Type} (e : TrackingElement) : Element υ where
  number := e.number
  key := e.key
  filter := e.filter
  properties := e.properties
  process := e.process

/-- How the element is shown. -/
def shown (e : TrackingElement) : String :=
  shownRecord "TrackerElement"
    [("element_data_key", quoted e.key), ("stop_on_repeat", shownBool e.stopOnRepeat)]

end TrackingElement

end EvidenceFlow
