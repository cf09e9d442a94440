import EvidenceFlow.Session
import EvidenceFlow.Proofs.Engine.CachedProcess

/-!
# Pipelines of engines

Engines are ordered for the stages of a pipeline, each with or without a store of results. What is built
from the orders does the same to a flow with stores and without: how the engines end and what they leave
is determined by the evidence, and all else that a pipeline does looks only at the flow.
-/

namespace EvidenceFlow

variable {υ : Type}

/-- An engine as it is ordered: the number by which its element is known, and the settings of a store of
results, if it is to have one. -/
structure EngineOrder (υ : Type) where
  /-- The number. -/
  number : Nat
  /-- The engine. -/
  engine : Engine υ
  /-- The settings of the store. -/
  cache : Option CacheSettings := none

namespace EngineOrder

/-- The order without a store. -/
def uncached (o : EngineOrder υ) : EngineOrder υ := { o with cache := none }

/-- The element that is built for the order. -/
def element (o : EngineOrder υ) : EngineElement υ :=
  { number := o.number, engine := o.engine, cached := o.cache.isSome }

/-- The element has the key of the engine. -/
theorem key_element (o : EngineOrder υ) : o.element.toElement.key = o.engine.key := rfl

/-- The element requires what the engine does. -/
theorem requires_element (o : EngineOrder υ) :
    o.element.toElement.requires = o.engine.requires := rfl

/-- Builds the elements of orders, each on a host of its own, and adds their stores to what is kept between
flows. -/
def buildAll (builders : Builders) (hosts : Nat → Host) :
    List (EngineOrder υ) → Shared υ → Except Fault (List (EngineElement υ) × Shared υ)
  | [], shared => .ok ([], shared)
  | o :: rest, shared => do
    let (e, store) ← EngineElement.build builders (hosts o.number) o.number o.engine o.cache none
    let (elements, shared) ← buildAll builders hosts rest (e.addTo store shared)
    return (e :: elements, shared)

end EngineOrder

/-- A stage of engines. -/
inductive OrderStage (υ : Type) where
  /-- An engine on its own. -/
  | single (order : EngineOrder υ)
  /-- A group. -/
  | parallel (group : List (EngineOrder υ))

namespace OrderStage

/-- The orders of the stage. -/
def orders : OrderStage υ → List (EngineOrder υ)
  | single order => [order]
  | parallel group => group

/-- The stage without stores. -/
def uncached : OrderStage υ → OrderStage υ
  | single order => single order.uncached
  | parallel group => parallel (group.map EngineOrder.uncached)

/-- The stage of a pipeline that is built for it. -/
def stage : OrderStage υ → Stage υ
  | single order => .single order.element.toElement
  | parallel group => .parallel (group.map fun o => o.element.toElement)

end OrderStage

/-- The orders of stages one after the other. -/
def ordersOf (stages : List (OrderStage υ)) : List (EngineOrder υ) := stages.flatMap OrderStage.orders

/-- The pipeline of ordered engines at work. -/
def Session.ofOrders (builders : Builders) (hosts : Nat → Host) (settings : PipelineSettings)
    (stages : List (OrderStage υ)) (user : υ) : Except Fault (Session υ) := do
  let (engines, shared) ← EngineOrder.buildAll builders hosts (ordersOf stages) { user }
  let pipeline ← Pipeline.build settings (stages.map OrderStage.stage)
  return { pipeline, engines, shared }

/-- Makes flows, fills each with evidence and processes it, one after the other. -/
def Session.runAll (s : Session υ) : List Evidence → List (Except Halt Nat) × Session υ
  | [] => ([], s)
  | evidence :: rest =>
    let (ended, s) := s.run evidence
    let (others, s) := s.runAll rest
    (ended :: others, s)

/-! ## What is kept between flows -/

/-- What holds of the stores and of the calls of ordered engines: stores hold nothing but what the
engines leave, and an engine that never fails has been called at most once for a fingerprint since
`user` was what the engines brought along. -/
structure EngineOrder.Kept (orders : List (EngineOrder υ)) (outcome : Nat → Fingerprint → Outcome)
    (user : υ) (shared : Shared υ) : Prop where
  /-- Stores hold what the engines leave. -/
  stocked : ∀ o ∈ orders, o.element.Stocked (outcome o.number) shared
  /-- Calls are not repeated. -/
  thrifty : ∀ log, (∀ o ∈ orders, o.engine.Logs log o.number) → ∀ o ∈ orders, o.cache.isSome →
    (∀ key, (outcome o.number key).result = .ok ()) →
      o.element.Thrifty log (fun key => (log user o.number).count key) shared

namespace EngineOrder

variable {orders : List (EngineOrder υ)} {outcome : Nat → Fingerprint → Outcome} {user : υ}
  {shared : Shared υ}

/-- What the engine of an order does for a flow. -/
def outcomeOn (outcome : Nat → Fingerprint → Outcome) (flow : Flow) (o : EngineOrder υ) : Outcome :=
  outcome o.number (.ofEvidence o.engine.filter flow.evidence)

/-- The flow with what the engine of an order leaves. -/
def leaveOn (outcome : Nat → Fingerprint → Outcome) (flow : Flow) (o : EngineOrder υ) : Flow :=
  flow.fill o.engine.key (o.engine.made (outcomeOn outcome flow o))

/-- An engine does what is determined, and keeps what is kept as it should be. -/
theorem Kept.process (h : Kept orders outcome user shared)
    (hnumbers : (orders.map number).Nodup)
    (hdetermined : ∀ o ∈ orders, o.engine.Determined (outcome o.number)) {o : EngineOrder υ}
    (ho : o ∈ orders) {flow : Flow} (hnone : flow.datum? o.engine.key = none) :
    ∃ shared', o.element.process.runOn { flow, shared } =
        ((outcomeOn outcome flow o).ended, { flow := leaveOn outcome flow o, shared := shared' }) ∧
      Kept orders outcome user shared' := by
  have hsame : ∀ {p : EngineOrder υ}, p ∈ orders → p.number = o.number → p = o := fun hp heq =>
    List.inj_on_of_nodup_map hnumbers hp ho heq
  obtain ⟨shared', hrun, hcarries⟩ :=
    EngineElement.process_of_determined rfl (hdetermined o ho) (h.stocked o ho) hnone
  refine ⟨shared', hrun, ?_, ?_⟩
  · intro p hp
    by_cases heq : p.number = o.number
    · rw [hsame hp heq]
      exact hcarries.stocked
    · exact (h.stocked p hp).congr (hcarries.others p.number heq)
  · intro log hlogs p hp hcache hok
    have hthrifty := h.thrifty log hlogs p hp hcache hok
    by_cases heq : p.number = o.number
    · obtain rfl := hsame hp heq
      exact hcarries.thrifty log (hlogs p hp) hcache hok _ hthrifty
    · exact hthrifty.congr (hcarries.others p.number heq)
        (hcarries.silent log (hlogs o ho) p.number heq)

end EngineOrder

end EvidenceFlow
