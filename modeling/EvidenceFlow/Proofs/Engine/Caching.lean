import EvidenceFlow.Proofs.Engine.Orders
import EvidenceFlow.Proofs.Engine.Sessions
import EvidenceFlow.Proofs.Pipeline.Stages

/-!
# Stores of results make no difference

A pipeline of determined engines, each with a key of its own, does the same to every flow whether its
engines have stores of results or not, however small the stores are. An engine that never fails is
called once for a fingerprint, as long as nothing is pushed out of its store.
-/

namespace EvidenceFlow

variable {υ α : Type}

/-! ## Engines side by side -/

namespace EngineOrder

variable {orders : List (EngineOrder υ)} {outcome : Nat → Fingerprint → Outcome} {user : υ}

/-- Orders whose numbers tell them apart and whose engines are determined. -/
structure Settled (orders : List (EngineOrder υ)) (outcome : Nat → Fingerprint → Outcome) :
    Prop where
  /-- Each number is that of one order. -/
  numbers : (orders.map number).Nodup
  /-- The engines are determined. -/
  determined : ∀ o ∈ orders, o.engine.Determined (outcome o.number)

/-- Without stores the orders are as settled as with them. -/
theorem Settled.uncached (h : Settled orders outcome) :
    Settled (orders.map EngineOrder.uncached) outcome := by
  refine ⟨?_, ?_⟩
  · rw [List.map_map]
    exact h.numbers
  · intro o ho
    obtain ⟨p, hp, rfl⟩ := List.mem_map.mp ho
    exact h.determined p hp

/-- Engines that leave their results leave other keys alone. -/
theorem datum?_leaveAll (sub : List (EngineOrder υ)) (flow : Flow) {key : String}
    (hkey : key ∉ sub.map fun o => o.engine.key) :
    (sub.foldl (leaveOn outcome) flow).datum? key = flow.datum? key := by
  induction sub generalizing flow with
  | nil => rfl
  | cons o rest ih =>
    rw [List.map_cons, List.mem_cons, not_or] at hkey
    rw [List.foldl_cons, ih _ hkey.2]
    exact flow.datum?_fill_of_ne hkey.1 _

/-- Engines of different keys end and leave results as it is determined, each by itself. -/
theorem Settled.runAll (h : Settled orders outcome) (user : υ) (sub : List (EngineOrder υ))
    (hsub : ∀ o ∈ sub, o ∈ orders) (hkeys : (sub.map fun o => o.engine.key).Nodup) (flow : Flow)
    (hnone : ∀ o ∈ sub, flow.datum? o.engine.key = none) :
    (modifyGet (Pipeline.runAll (sub.map fun o => o.element.toElement)) :
        Act υ (List (Except Halt Unit))).Does (Kept orders outcome user) flow
      (.ok (sub.map fun o => (outcomeOn outcome flow o).ended))
      (sub.foldl (leaveOn outcome) flow) := by
  intro shared hkept
  suffices hall : ∃ shared', Pipeline.runAll (sub.map fun o => o.element.toElement) { flow, shared } =
      (sub.map fun o => (outcomeOn outcome flow o).ended,
        { flow := sub.foldl (leaveOn outcome) flow, shared := shared' }) ∧
      Kept orders outcome user shared' by
    obtain ⟨shared', hrun, hkept'⟩ := hall
    exact ⟨shared', by rw [Act.runOn_modifyGet, hrun], hkept'⟩
  induction sub generalizing flow shared with
  | nil => exact ⟨shared, rfl, hkept⟩
  | cons o rest ih =>
    rw [List.map_cons, List.nodup_cons] at hkeys
    obtain ⟨shared', hrun, hkept'⟩ := hkept.process h.numbers h.determined (hsub o (by simp))
      (hnone o (by simp))
    have hrest : ∀ p ∈ rest, (leaveOn outcome flow o).datum? p.engine.key = none := by
      intro p hp
      have hne : p.engine.key ≠ o.engine.key := by
        intro heq
        exact hkeys.1 (List.mem_map.mpr ⟨p, hp, heq⟩)
      exact (flow.datum?_fill_of_ne hne _).trans (hnone p (List.mem_cons_of_mem _ hp))
    obtain ⟨shared'', hothers, hkept''⟩ := ih (fun p hp => hsub p (List.mem_cons_of_mem _ hp))
      hkeys.2 _ hrest shared' hkept'
    replace hrun : o.element.toElement.process.runOn { flow, shared } = _ := hrun
    refine ⟨shared'', ?_, hkept''⟩
    rw [List.map_cons, Pipeline.runAll_cons, hrun]
    simp only [hothers]
    rfl

end EngineOrder

open EngineOrder

variable {orders : List (EngineOrder υ)} {outcome : Nat → Fingerprint → Outcome} {user : υ}

/-- What two acts do to a flow, one with stores of results and one without: the same, and what is there
under other keys than the given ones stays. -/
def Act.Agree (orders : List (EngineOrder υ)) (outcome : Nat → Fingerprint → Outcome) (user : υ)
    (act plain : Act υ α) (flow : Flow) (keys : List String) : Prop :=
  ∃ ended after, act.Does (Kept orders outcome user) flow ended after ∧
    plain.Does (Kept (orders.map uncached) outcome user) flow ended after ∧
      ∀ key, key ∉ keys → after.datum? key = flow.datum? key

/-- Elements have the same keys with stores and without. -/
theorem keys_uncached (sub : List (EngineOrder υ)) :
    ((sub.map uncached).map fun o => o.element.toElement).map (·.key) =
      (sub.map fun o => o.element.toElement).map (·.key) := by
  rw [List.map_map, List.map_map, List.map_map]
  apply List.map_congr_left
  intro o _
  exact (key_element o.uncached).trans (key_element o).symm

/-- The faults of elements are recorded beside their keys. -/
theorem faultsOf_congr {elements others : List (Element υ)}
    (h : elements.map (·.key) = others.map (·.key)) (ended : List (Except Halt Unit)) :
    Pipeline.faultsOf elements ended = Pipeline.faultsOf others ended := by
  have hkeyed : ∀ elements : List (Element υ), Pipeline.faultsOf elements ended =
      ((elements.map (·.key)).zip ended).filterMap fun pair => Pipeline.faultOf? pair.1 pair.2 := by
    intro elements
    rw [List.zip_map_left, List.filterMap_map]
    rfl
  rw [hkeyed, hkeyed, h]

/-- The elements of a stage are those of its orders. -/
theorem OrderStage.elements_stage (s : OrderStage υ) :
    s.stage.elements = s.orders.map fun o => o.element.toElement := by
  cases s <;> rfl

/-- A stage without stores has its orders without them. -/
theorem OrderStage.orders_uncached (s : OrderStage υ) :
    s.uncached.orders = s.orders.map EngineOrder.uncached := by
  cases s <;> rfl

/-- A stage does the same with stores and without. -/
theorem runStage_agree (h : Settled orders outcome) (user : υ) {s : OrderStage υ}
    (hsub : ∀ o ∈ s.orders, o ∈ orders) (hkeys : (s.orders.map fun o => o.engine.key).Nodup)
    {flow : Flow} (hnone : ∀ o ∈ s.orders, flow.datum? o.engine.key = none) :
    Act.Agree orders outcome user (Pipeline.runStage s.stage.elements)
      (Pipeline.runStage s.uncached.stage.elements) flow (s.orders.map fun o => o.engine.key) := by
  rw [OrderStage.elements_stage, OrderStage.elements_stage, OrderStage.orders_uncached,
    Pipeline.runStage_eq, Pipeline.runStage_eq]
  obtain ⟨concluded, after, hconclude, hdata⟩ := Pipeline.conclude_does (υ := υ)
    (s.orders.map fun o => (outcomeOn outcome flow o).ended)
    (Pipeline.faultsOf (s.orders.map fun o => o.element.toElement)
      (s.orders.map fun o => (outcomeOn outcome flow o).ended))
    (s.orders.foldl (leaveOn outcome) flow)
  refine ⟨concluded, after, (h.runAll user s.orders hsub hkeys flow hnone).bind (hconclude _), ?_, ?_⟩
  · have hends : ((s.orders.map uncached).map fun o => (outcomeOn outcome flow o).ended) =
        s.orders.map fun o => (outcomeOn outcome flow o).ended := by
      rw [List.map_map]
      rfl
    have hleft : (s.orders.map uncached).foldl (leaveOn outcome) flow =
        s.orders.foldl (leaveOn outcome) flow := by
      rw [List.foldl_map]
      rfl
    have hplain := h.uncached.runAll user (s.orders.map uncached) ?_ ?_ flow ?_
    · rw [hends, hleft] at hplain
      apply hplain.bind
      rw [faultsOf_congr (keys_uncached _)]
      exact hconclude _
    · intro o ho
      obtain ⟨p, hp, rfl⟩ := List.mem_map.mp ho
      exact List.mem_map_of_mem (hsub p hp)
    · rw [List.map_map]
      exact hkeys
    · intro o ho
      obtain ⟨p, hp, rfl⟩ := List.mem_map.mp ho
      exact hnone p hp
  · intro key hkey
    rw [hdata, datum?_leaveAll _ _ hkey]

/-- Stages do the same with stores and without. -/
theorem runStages_agree (h : Settled orders outcome) (user : υ) (stages : List (OrderStage υ))
    (hsub : ∀ o ∈ ordersOf stages, o ∈ orders)
    (hkeys : ((ordersOf stages).map fun o => o.engine.key).Nodup) {flow : Flow}
    (hnone : ∀ o ∈ ordersOf stages, flow.datum? o.engine.key = none) :
    ∃ ended after, (Pipeline.runStages (stages.map OrderStage.stage)).Does
        (Kept orders outcome user) flow ended after ∧
      (Pipeline.runStages ((stages.map OrderStage.uncached).map OrderStage.stage)).Does
        (Kept (orders.map uncached) outcome user) flow ended after := by
  induction stages generalizing flow with
  | nil =>
    exact ⟨_, flow, .of_runOn fun shared => Act.runOn_pure _ _,
      .of_runOn fun shared => Act.runOn_pure _ _⟩
  | cons s rest ih =>
    have hsplit : ordersOf (s :: rest) = s.orders ++ ordersOf rest := rfl
    rw [hsplit] at hsub hnone hkeys
    rw [List.map_append, List.nodup_append] at hkeys
    obtain ⟨hfirst, hlater, hapart⟩ := hkeys
    obtain ⟨ended, after, hdoes, hplain, hdata⟩ := runStage_agree h user
      (fun o ho => hsub o (List.mem_append_left _ ho)) hfirst
      (fun o ho => hnone o (List.mem_append_left _ ho))
    simp only [List.map_cons, Pipeline.runStages_cons]
    cases ended with
    | error halt => exact ⟨_, after, hdoes.bind_error, hplain.bind_error⟩
    | ok x =>
      cases hstopped : after.stopped with
      | true =>
        refine ⟨.ok (), after, hdoes.bind (Pipeline.goOn_does ?_),
          hplain.bind (Pipeline.goOn_does ?_)⟩
        · rw [if_pos hstopped]
          exact .of_runOn fun shared => Act.runOn_pure _ _
        · rw [if_pos hstopped]
          exact .of_runOn fun shared => Act.runOn_pure _ _
      | false =>
        have hfree : ∀ o ∈ ordersOf rest, after.datum? o.engine.key = none := by
          intro o ho
          rw [hdata, hnone o (List.mem_append_right _ ho)]
          intro hmem
          exact hapart _ hmem _ (List.mem_map_of_mem ho) rfl
        obtain ⟨ended, last, hrest, hplainRest⟩ := ih
          (fun o ho => hsub o (List.mem_append_right _ ho)) hlater hfree
        refine ⟨ended, last, hdoes.bind (Pipeline.goOn_does ?_),
          hplain.bind (Pipeline.goOn_does ?_)⟩
        · rw [hstopped]
          exact hrest
        · rw [hstopped]
          exact hplainRest

/-- A pipeline runs the same with stores and without. -/
theorem run_agree (h : Settled orders outcome) (user : υ) {stages : List (OrderStage υ)}
    (hsub : ∀ o ∈ ordersOf stages, o ∈ orders)
    (hkeys : ((ordersOf stages).map fun o => o.engine.key).Nodup) {p q : Pipeline υ}
    (hp : p.stages = stages.map OrderStage.stage)
    (hq : q.stages = (stages.map OrderStage.uncached).map OrderStage.stage)
    (hsettings : q.settings = p.settings) {flow : Flow}
    (hnone : ∀ o ∈ ordersOf stages, flow.datum? o.engine.key = none) :
    ∃ ended after, p.run.Does (Kept orders outcome user) flow ended after ∧
      q.run.Does (Kept (orders.map uncached) outcome user) flow ended after := by
  obtain ⟨ended, after, hdoes, hplain⟩ := runStages_agree h user stages hsub hkeys hnone
  rw [Pipeline.run_eq, Pipeline.run_eq, hp, hq, hsettings]
  cases ended with
  | error halt => exact ⟨_, after, hdoes.bind_error, hplain.bind_error⟩
  | ok x =>
    obtain ⟨ended, hreport⟩ := Pipeline.report_does (υ := υ) p.settings after
    exact ⟨ended, after, hdoes.bind (.get_bind (hreport _)), hplain.bind (.get_bind (hreport _))⟩

/-- A pipeline does the same to a flow with stores and without. -/
theorem process_agree (h : Settled orders outcome) (user : υ) {stages : List (OrderStage υ)}
    (hsub : ∀ o ∈ ordersOf stages, o ∈ orders)
    (hkeys : ((ordersOf stages).map fun o => o.engine.key).Nodup) {p q : Pipeline υ}
    (hp : p.stages = stages.map OrderStage.stage)
    (hq : q.stages = (stages.map OrderStage.uncached).map OrderStage.stage)
    (hsettings : q.settings = p.settings) (hclosed : q.closed = p.closed) (flow : Flow)
    (hnone : ∀ o ∈ ordersOf stages, flow.datum? o.engine.key = none) :
    ∃ ended after, p.process.Does (Kept orders outcome user) flow ended after ∧
      q.process.Does (Kept (orders.map uncached) outcome user) flow ended after := by
  rw [Pipeline.process_eq, Pipeline.process_eq, hclosed]
  cases hbegin : flow.begin with
  | error fault =>
    have htry : ∀ kept : Shared υ → Prop,
        (Act.tryFlow Flow.begin).Does kept flow (.error (.fault fault)) flow := fun kept =>
      .of_runOn fun shared => by rw [Act.runOn_tryFlow, hbegin]
    exact ⟨_, flow, (htry _).bind_error, (htry _).bind_error⟩
  | ok begun =>
    have htry : ∀ kept : Shared υ → Prop,
        (Act.tryFlow Flow.begin).Does kept flow (.ok ()) begun := fun kept =>
      .of_runOn fun shared => by rw [Act.runOn_tryFlow, hbegin]
    cases p.closed with
    | true =>
      have hfail : ∀ kept : Shared υ → Prop,
          (Act.fail .closed : Act υ Unit).Does kept begun (.error (.fault .closed)) begun :=
        fun kept => .of_runOn fun shared => Act.runOn_fail _ _
      exact ⟨_, begun, (htry _).bind (hfail _), (htry _).bind (hfail _)⟩
    | false =>
      have hfree : ∀ o ∈ ordersOf stages, begun.datum? o.engine.key = none := by
        intro o ho
        unfold Flow.begin at hbegin
        split at hbegin
        · cases hbegin
        · cases hbegin
          exact hnone o ho
      obtain ⟨ended, after, hdoes, hplain⟩ := run_agree h user hsub hkeys hp hq hsettings hfree
      exact ⟨ended, after, (htry _).bind hdoes, (htry _).bind hplain⟩

/-! ## Sessions -/

namespace Session

/-- A flow is made, filled and processed, and stays with the session. -/
theorem run_of_open {s : Session υ} (h : s.pipeline.closed = false) (evidence : Evidence) :
    s.run evidence =
      let processed := s.pipeline.process.runOn { flow := s.freshFlow evidence, shared := s.shared }
      (processed.1.map fun _ => s.flows.length,
        { s with flows := s.flows ++ [processed.2.flow], shared := processed.2.shared }) := by
  rw [run, createWith_of_open h]
  simp [process, act, flow?, modify_concat]

/-- A closed session makes no flows. -/
theorem run_of_closed {s : Session υ} (h : s.pipeline.closed = true) (evidence : Evidence) :
    s.run evidence = (.error (.fault .closed), s) := by
  rw [run, createWith_of_closed h]

/-- Two sessions with the same stages of engines and the same flows, one with stores of results and one
without. -/
structure Twins (stages : List (OrderStage υ)) (outcome : Nat → Fingerprint → Outcome) (user : υ)
    (s t : Session υ) : Prop where
  /-- The flows are the same. -/
  flows : t.flows = s.flows
  /-- One has the stages with stores. -/
  stored : s.pipeline.stages = stages.map OrderStage.stage
  /-- The other has the stages without stores. -/
  plain : t.pipeline.stages = (stages.map OrderStage.uncached).map OrderStage.stage
  /-- The settings are the same. -/
  settings : t.pipeline.settings = s.pipeline.settings
  /-- Both take more work or neither does. -/
  closed : t.pipeline.closed = s.pipeline.closed
  /-- One keeps between flows what it should. -/
  kept : Kept (ordersOf stages) outcome user s.shared
  /-- So does the other. -/
  plainKept : Kept ((ordersOf stages).map uncached) outcome user t.shared

namespace Twins

variable {stages : List (OrderStage υ)} {s t : Session υ}

/-- Twins stay twins with every flow, and give the same answers. -/
theorem run (h : Twins stages outcome user s t) (hsettled : Settled (ordersOf stages) outcome)
    (hkeys : ((ordersOf stages).map fun o => o.engine.key).Nodup) (evidence : Evidence) :
    (s.run evidence).1 = (t.run evidence).1 ∧
      Twins stages outcome user (s.run evidence).2 (t.run evidence).2 := by
  have hclosed := h.closed
  cases hopen : s.pipeline.closed with
  | true =>
    rw [hopen] at hclosed
    rw [run_of_closed hopen, run_of_closed hclosed]
    exact ⟨rfl, h⟩
  | false =>
    rw [hopen] at hclosed
    have hfresh : t.freshFlow evidence = s.freshFlow evidence := by
      rw [freshFlow, freshFlow, h.flows]
    obtain ⟨ended, after, hdoes, hplain⟩ := process_agree hsettled user (fun o ho => ho)
      hkeys h.stored h.plain h.settings h.closed
      (s.freshFlow evidence) (fun o _ => rfl)
    obtain ⟨shared, hrun, hkept⟩ := hdoes s.shared h.kept
    obtain ⟨plain, hplainRun, hplainKept⟩ := hplain t.shared h.plainKept
    rw [run_of_open hopen, run_of_open hclosed, hfresh, hrun, hplainRun, h.flows]
    exact ⟨rfl, rfl, h.stored, h.plain, h.settings, h.closed, hkept, hplainKept⟩

/-- Twins give the same answers to every sequence of flows. -/
theorem runAll (hsettled : Settled (ordersOf stages) outcome)
    (hkeys : ((ordersOf stages).map fun o => o.engine.key).Nodup) (evidences : List Evidence)
    (h : Twins stages outcome user s t) :
    (s.runAll evidences).1 = (t.runAll evidences).1 ∧
      Twins stages outcome user (s.runAll evidences).2 (t.runAll evidences).2 := by
  induction evidences generalizing s t with
  | nil => exact ⟨rfl, h⟩
  | cons evidence rest ih =>
    obtain ⟨hfirst, hthen⟩ := h.run hsettled hkeys evidence
    obtain ⟨hlater, hend⟩ := ih hthen
    exact ⟨congrArg₂ List.cons hfirst hlater, hend⟩

end Twins

end Session

end EvidenceFlow
