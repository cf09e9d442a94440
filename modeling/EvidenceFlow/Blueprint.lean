import EvidenceFlow.Element.Tracking
import EvidenceFlow.Script
import EvidenceFlow.Session

/-!
# Blueprints

A blueprint declares the stages of a pipeline: elements that do nothing, scripted elements and engines,
engines with fixed results, trackers, and elements that stand in several places. Elements are numbered
in the order in which they are declared, and are built in this order, each on a host of its own; the first
one that cannot be built is reported by its number.
-/

namespace EvidenceFlow

/-- What an engine is wished to come with. -/
structure EnginePlan where
  /-- The settings of its store of results. -/
  cache : Option CacheSettings := none
  /-- How it is run apart from the flow. -/
  apart : Option LazyPlan := none

/-- An element as it is declared; the numbers in scripts and engines are not looked at. -/
inductive Declaration where
  /-- The element of a number once more. -/
  | again (number : Nat)
  /-- An element that consumes everything and does nothing. -/
  | plain (key : String)
  /-- An engine that consumes everything and sets the property `done`. -/
  | plainEngine (key : String) (plan : EnginePlan)
  /-- A script as an element. -/
  | script (script : Script)
  /-- A script as an engine. -/
  | scriptEngine (script : Script) (plan : EnginePlan)
  /-- An engine with fixed results. -/
  | fixedEngine (engine : FixedEngine) (plan : EnginePlan)
  /-- A tracker, whose clock moves or stands still. -/
  | tracker (key : String) (filter : Filter) (settings : TrackerSettings) (clockMoves : Bool)

/-- A stage as it is declared. -/
inductive StageDeclaration where
  /-- An element on its own. -/
  | single (element : Declaration)
  /-- A group. -/
  | parallel (group : List Declaration)

namespace StageDeclaration

/-- The elements of the stage. -/
def elements : StageDeclaration → List Declaration
  | single element => [element]
  | parallel group => group

/-- The elements of the stages one after the other, each on its own. -/
def inSequence (stages : List StageDeclaration) : List StageDeclaration :=
  (stages.flatMap elements).map single

/-- No element is lost or moved. -/
theorem flatMap_elements_inSequence (stages : List StageDeclaration) :
    (inSequence stages).flatMap elements = stages.flatMap elements := by
  simp [inSequence, List.flatMap_map, elements]

end StageDeclaration

/-- An element that has been built. -/
inductive Part where
  /-- An element that does nothing. -/
  | plain (element : Element Journal)
  /-- An engine that is not counted. -/
  | plainEngine (element : EngineElement Journal)
  /-- A scripted element. -/
  | script (element : Element Journal)
  /-- A scripted engine. -/
  | scriptEngine (element : EngineElement Journal)
  /-- An engine with fixed results. -/
  | fixedEngine (element : EngineElement Journal)
  /-- A tracker. -/
  | tracker (element : TrackingElement)

namespace Part

/-- The element of a pipeline. -/
def element : Part → Element Journal
  | plain e | script e => e
  | plainEngine e | scriptEngine e | fixedEngine e => e.toElement
  | tracker e => e.toElement

/-- The engine, if the element is one. -/
def engine? : Part → Option (EngineElement Journal)
  | plainEngine e | scriptEngine e | fixedEngine e => some e
  | _ => none

/-- The number of calls and of closings, if they are counted. An engine with fixed results knows only
whether it has been closed. -/
def counts? (part : Part) (journal : Journal) : Option (Nat × Nat) :=
  let (calls, closes) := journal.countsOf part.element.number
  match part with
  | script _ | scriptEngine _ => some (calls, closes)
  | fixedEngine _ => some (calls, min closes 1)
  | _ => none

end Part

/-- The engine that sets the property `done`. -/
def plainEngine (key : String) : Engine Journal where
  key
  name := key
  filter := .all
  run object := Act.modifyObject object (·.set "done" (.bool true))

/-- Parts that have been built, and what is kept between flows. -/
structure Workshop where
  /-- The parts, each at the place of its number. -/
  parts : List Part := []
  /-- What is kept between flows. -/
  shared : Shared Journal := { user := {} }

/-- Why a blueprint cannot be built: the number of the element and what is wrong with it. -/
structure BuildFault where
  /-- The number of the element. -/
  element : Nat
  /-- What is wrong with it. -/
  fault : Fault

namespace Workshop

/-- Adds a part. -/
def add (w : Workshop) (part : Part) : Element Journal × Workshop :=
  (part.element, { w with parts := w.parts ++ [part] })

/-- Adds an engine with what it comes with. -/
def addEngine (builders : Builders) (hosts : Nat → Host) (plan : EnginePlan) (engine : Engine Journal)
    (part : EngineElement Journal → Part) (w : Workshop) : Except Fault (Element Journal × Workshop) := do
  let number := w.parts.length
  let (e, store) ← EngineElement.build builders (hosts number) number engine plan.cache plan.apart
  return { w with shared := e.addTo store w.shared }.add (part e)

/-- Builds an element; one that is to be there already is looked up. -/
def build (builders : Builders) (hosts : Nat → Host) (declaration : Declaration) (w : Workshop) :
    Except Fault (Element Journal × Workshop) :=
  let number := w.parts.length
  match declaration with
  | .again n =>
    match w.parts[n]? with
    | some part => .ok (part.element, w)
    | none => .error (.element "" "no such element")
  | .plain key => .ok (w.add (.plain { number, key, filter := .all, process := pure () }))
  | .plainEngine key plan => w.addEngine builders hosts plan (EvidenceFlow.plainEngine key) .plainEngine
  | .script script => .ok (w.add (.script { script with number }.toElement))
  | .scriptEngine script plan =>
    w.addEngine builders hosts plan { script with number }.toEngine .scriptEngine
  | .fixedEngine engine plan =>
    w.addEngine builders hosts plan { engine with number }.toEngine .fixedEngine
  | .tracker key filter settings clockMoves => do
    let (e, tracker) ← TrackingElement.build (hosts number) number key filter settings clockMoves
    return { w with shared := e.addTo tracker w.shared }.add (.tracker e)

/-- Builds elements one after the other. -/
def buildAll (builders : Builders) (hosts : Nat → Host) :
    List Declaration → Workshop → Except BuildFault (List (Element Journal) × Workshop)
  | [], w => .ok ([], w)
  | declaration :: rest, w => do
    let (element, built) ← (w.build builders hosts declaration).mapError (⟨w.parts.length, ·⟩)
    let (elements, w) ← buildAll builders hosts rest built
    return (element :: elements, w)

/-- Builds stages one after the other. -/
def buildStages (builders : Builders) (hosts : Nat → Host) :
    List StageDeclaration → Workshop → Except BuildFault (List (Stage Journal) × Workshop)
  | [], w => .ok ([], w)
  | .single declaration :: rest, w => do
    let (elements, w) ← buildAll builders hosts [declaration] w
    let (stages, w) ← buildStages builders hosts rest w
    return (elements.map .single ++ stages, w)
  | .parallel group :: rest, w => do
    let (elements, w) ← buildAll builders hosts group w
    let (stages, w) ← buildStages builders hosts rest w
    return (.parallel elements :: stages, w)

end Workshop

end EvidenceFlow
