import EvidenceFlow.Element
import EvidenceFlow.Settings.Pipeline

/-!
# Pipelines

A pipeline runs its elements stage by stage. A stage is a single element or a group whose elements all
run before the next stage begins, whatever becomes of one of them. Faults of elements are recorded on
the flow in the order in which the elements are declared; a fault in settings ends the run after its
stage. Whether the flow has been stopped is looked at after each stage.
-/

namespace EvidenceFlow

open Text

/-- One step of a pipeline. -/
inductive Stage (υ : Type) where
  /-- An element on its own. -/
  | single (element : Element υ)
  /-- A group of elements that run side by side. -/
  | parallel (group : List (Element υ))

namespace Stage

/-- The elements of the stage. -/
def elements {υ : Type} : Stage υ → List (Element υ)
  | single element => [element]
  | parallel group => group

/-- Whether the elements run side by side. -/
def isParallel {υ : Type} : Stage υ → Bool
  | single _ => false
  | parallel _ => true

end Stage

/-- The elements of stages, in order of declaration. -/
def elementsOf {υ : Type} (stages : List (Stage υ)) : List (Element υ) :=
  stages.flatMap Stage.elements

/-- A pipeline. -/
structure Pipeline (υ : Type) where
  /-- The stages. -/
  stages : List (Stage υ)
  /-- The settings. -/
  settings : PipelineSettings := {}
  /-- The properties found so far, by the name asked for in lower case. -/
  metadata : Table String Property := []
  /-- Whether the pipeline takes no more work. -/
  closed : Bool := false

namespace Pipeline

variable {υ : Type}

/-! ## Building -/

/-- A group in the form in which a pipeline holds it, or what is wrong with its size. -/
def checkGroup (settings : PipelineSettings) : Stage υ → Except Fault (Stage υ)
  | .parallel [] =>
    .error (.setting (.invalid "parallel_group" "0"
      "a parallel group must contain at least one element"))
  | .parallel group =>
    if settings.maxParallel < group.length then
      .error (.setting (.invalid "parallel_group" (toString group.length)
        "parallel group exceeds max_parallel_elements"))
    else
      match group with
      | [element] => .ok (.single element)
      | group => .ok (.parallel group)
  | .single element => .ok (.single element)

/-- The first key that the element requires and that is not among those seen. -/
def missingOf (seen : List String) (element : Element υ) : Option SettingFault :=
  (element.requires.find? fun key => !seen.contains key).map fun key =>
    .missingPredecessor element.key key

/-- The first missing predecessor, if there is one, given the keys of the stages before. -/
def firstMissing (seen : List String) : List (Stage υ) → Option SettingFault
  | [] => none
  | stage :: rest =>
    (stage.elements.findSome? (missingOf seen)).or
      (firstMissing (seen ++ stage.elements.map (·.key)) rest)

/-- The pipeline of the stages, if the settings are valid, every group has an allowed size and every
element comes after those that it requires; the first of these that fails is reported. -/
def build (settings : PipelineSettings) (stages : List (Stage υ)) : Except Fault (Pipeline υ) := do
  settings.validate
  let stages ← stages.mapM (checkGroup settings)
  match firstMissing [] stages with
  | some fault => throw (.setting fault)
  | none => return { stages, settings }

/-! ## What it is made of -/

/-- The elements in order of declaration. -/
def elements (p : Pipeline υ) : List (Element υ) := elementsOf p.stages

/-- The elements by key, each put there unless the key has one. -/
def byKey (p : Pipeline υ) : Table String (Element υ) :=
  p.elements.foldl (fun held element => held.putNew element.key element) []

/-- The element of a key. -/
def element? (p : Pipeline υ) (key : String) : Option (Element υ) :=
  p.byKey.lookup key

/-- Whether elements run side by side. -/
def isConcurrent (p : Pipeline υ) : Bool := p.stages.any Stage.isParallel

/-- The evidence that some element consumes. -/
def filter (p : Pipeline υ) : Filter :=
  (p.elements.foldl (fun union element => union.addFilter element.filter)
    ({} : Filter.Union)).toFilter

/-! ## Properties -/

/-- Adds a property to those of its key, unless it is excluded or one of the name is there. -/
def addAvailable (held : List Property) (property : Property) : List Property :=
  if property.available && !held.any fun other => eqUpToAsciiCase other.name property.name then
    held ++ [property]
  else held

/-- The properties that the elements of a key write. -/
def availableOf (p : Pipeline υ) (key : String) : List Property :=
  ((p.elements.filter fun element => element.key = key).flatMap (·.properties)).foldl addAvailable []

/-- The properties that elements write, by key. -/
def available (p : Pipeline υ) : List (String × List Property) :=
  (p.elements.map (·.key)).eraseDups.map fun key => (key, p.availableOf key)

/-- The declared properties of a name. -/
def declaring (p : Pipeline υ) (name : String) : List Property :=
  (p.elements.flatMap (·.properties)).filter fun property => eqUpToAsciiCase property.name name

/-- The one property of a name that elements declare. -/
def findProperty (p : Pipeline υ) (name : String) : Except Fault Property :=
  match p.declaring name with
  | [] => .error (.metadata s!"Could not find property '{name}'")
  | [property] => .ok property
  | several =>
    .error (.metadata (s!"Multiple matches for property '{name}'. " ++
      "Flow elements that populate this property are: " ++
      shownList (several.map fun property => quoted property.elementKey)))

/-- The one property of a name, which is remembered once found. -/
def metadataFor (p : Pipeline υ) (name : String) : Except Fault Property × Pipeline υ :=
  match p.metadata.lookup (lowercase name) with
  | some property => (.ok property, p)
  | none =>
    match p.findProperty name with
    | .ok property => (.ok property, { p with metadata := p.metadata.put (lowercase name) property })
    | .error fault => (.error fault, p)

/-! ## Running -/

/-- Runs elements and collects how each one ended. -/
def runAll : List (Element υ) → Scene υ → List (Except Halt Unit) × Scene υ
  | [], scene => ([], scene)
  | element :: rest, scene =>
    let (ended, scene) := element.process.runOn scene
    let (others, scene) := runAll rest scene
    (ended :: others, scene)

/-- The message of an end that was broken off. -/
def panicOf? : Except Halt Unit → Option String
  | .error (.panic message) => some message
  | _ => none

/-- The fault with which an element ended, beside the element's key. -/
def faultOf? (key : String) : Except Halt Unit → Option Incident
  | .error (.fault fault) => some (.mk key fault)
  | _ => none

/-- What the elements ended with, in order of declaration. -/
def faultsOf (elements : List (Element υ)) (ended : List (Except Halt Unit)) : List Incident :=
  (elements.zip ended).filterMap fun pair => faultOf? pair.1.key pair.2

/-- Runs the elements of a stage and records their faults. Ends with the first fault in settings, if
there is one, or broken off if an element was. -/
def runStage (elements : List (Element υ)) : Act υ Unit := do
  let ended ← modifyGet (runAll elements)
  match ended.findSome? panicOf? with
  | some message => throw (.panic message)
  | none =>
    let (fatal, recorded) := (faultsOf elements ended).partition fun incident => incident.fault.isFatal
    Act.onFlow fun flow => ((), recorded.foldl Flow.addIncident flow)
    match fatal with
    | [] => return
    | incident :: _ => Act.fail incident.fault

/-- Runs stages until the flow has been stopped. -/
def runStages : List (Stage υ) → Act υ Unit
  | [] => pure ()
  | stage :: rest => do
    runStage stage.elements
    if (← get).flow.stopped then return
    runStages rest

/-- Runs the pipeline, and ends with all the incidents of the flow unless they are suppressed. -/
def run (p : Pipeline υ) : Act υ Unit := do
  runStages p.stages
  let flow := (← get).flow
  if !flow.incidents.isEmpty && !p.settings.suppressIncidents then
    Act.fail (.aggregate flow.incidents)

/-- Begins to process the flow and runs the pipeline on it, unless it takes no more work. -/
def process (p : Pipeline υ) : Act υ Unit := do
  Act.tryFlow Flow.begin
  if p.closed then Act.fail .closed
  p.run

/-! ## Closing -/

/-- Closes every element and keeps the first fault. -/
def closeAll : List (Element υ) → Shared υ → Option Fault × Shared υ
  | [], shared => (none, shared)
  | element :: rest, shared =>
    let (ended, shared) := StateT.run (ExceptT.run element.close) shared
    let (later, shared) := closeAll rest shared
    match ended with
    | .ok () => (later, shared)
    | .error fault => (some fault, shared)

/-- Lets the pipeline take no more work and closes its elements, once, if the settings say so. -/
def close (p : Pipeline υ) (shared : Shared υ) : Except Fault Unit × Pipeline υ × Shared υ :=
  if p.closed then (.ok (), p, shared)
  else
    let p := { p with closed := true }
    if !p.settings.closeElements then (.ok (), p, shared)
    else
      match closeAll p.elements shared with
      | (none, shared) => (.ok (), p, shared)
      | (some fault, shared) => (.error fault, p, shared)

/-- How the pipeline is shown, by a name for it. -/
def shown (p : Pipeline υ) (name : String) : String :=
  shownRecord "Pipeline"
    [("id", name), ("elements", shownList (p.elements.map fun element => quoted element.key)),
      ("closed", shownBool p.closed)]

end Pipeline

end EvidenceFlow
