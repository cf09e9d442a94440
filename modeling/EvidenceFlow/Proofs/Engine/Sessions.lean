import EvidenceFlow.Blueprint
import EvidenceFlow.Proofs.Engine.CachedProcess

/-!
# Sessions of engines

Engines are built one after the other, each with its plan, and a pipeline is built of their elements.
What has just been built has no flows, no jobs and nothing in its stores of results. From then on
flows are made and processed in any order, other code sets properties of their result objects, and jobs
that wait are run or dropped.
-/

namespace EvidenceFlow

variable {υ : Type}

/-! ## Building -/

/-- Builds the elements of engines, numbered from a number on and each on a host of its own, and adds to
what is kept between flows what they come with. -/
def EngineElement.buildAll (builders : Builders) (hosts : Nat → Host) :
    Nat → List (Engine υ × EnginePlan) → Shared υ → Except Fault (List (EngineElement υ) × Shared υ)
  | _, [], shared => .ok ([], shared)
  | number, (engine, plan) :: rest, shared => do
    let (e, store) ← EngineElement.build builders (hosts number) number engine plan.cache plan.apart
    let (elements, shared) ← buildAll builders hosts (number + 1) rest (e.addTo store shared)
    return (e :: elements, shared)

/-- A session of engines that has just been built. -/
structure Session.Begins (s : Session υ) : Prop where
  /-- Each number is that of one engine. -/
  numbers : (s.engines.map EngineElement.number).Nodup
  /-- The elements of the pipeline are engines of the session. -/
  elements : ∀ x ∈ s.pipeline.elements, ∃ e ∈ s.engines, x = e.toElement
  /-- The stores of results are empty. -/
  stores : ∀ e ∈ s.engines, ∀ good, e.Stores good s.shared
  /-- No job waits. -/
  queue : s.shared.queue = []
  /-- No flow has been made. -/
  flows : s.flows = []

namespace EngineElement

/-- An element is built as it is described, and its store, if it has one, holds nothing. -/
theorem build_spec {builders : Builders} {host : Host} {number : Nat} {engine : Engine υ}
    {cache : Option CacheSettings} {plan : Option LazyPlan} {e : EngineElement υ}
    {store : Option (KeyedStore Aspect)}
    (h : build builders host number engine cache plan = .ok (e, store)) :
    e = { number, engine, cached := cache.isSome, dispatch := e.dispatch } ∧
      (plan = none → e.dispatch = none) ∧
      ∀ built, store = some built → ∀ good, built.Keeps good := by
  obtain ⟨made, hmade, h⟩ := exists_of_bind_eq_ok h
  obtain ⟨dispatch, hdispatch, h⟩ := exists_of_bind_eq_ok h
  cases h
  have hdirect : plan = none → dispatch = none := by
    rintro rfl
    cases hdispatch
    rfl
  cases cache with
  | none =>
    cases hmade
    refine ⟨rfl, hdirect, ?_⟩
    intro built hbuilt
    cases hbuilt
  | some settings =>
    rw [Option.mapM_some] at hmade
    obtain ⟨store, hbuild, hmade⟩ := exists_of_bind_eq_ok hmade
    cases hmade
    refine ⟨rfl, hdirect, ?_⟩
    rintro _ ⟨⟩ good
    exact KeyedStore.keeps_of_build hbuild

/-- An engine with a store and without an executor can be built if the store can. -/
theorem build_of_store {builders : Builders} {host : Host} {settings : CacheSettings} {engine : Engine υ}
    {store : KeyedStore Aspect} (h : builders.build host settings engine.filter = .ok store)
    (number : Nat) :
    build builders host number engine (some settings) none =
      .ok ({ number, engine, cached := true }, some store) := by
  unfold build
  rw [Option.mapM_some, h]
  rfl

/-- Elements are built one after the other. -/
theorem buildAll_cons {builders : Builders} {hosts : Nat → Host} {number : Nat} {engine : Engine υ}
    {plan : EnginePlan}
    {rest : List (Engine υ × EnginePlan)} {shared built : Shared υ} {e : EngineElement υ}
    {store : Option (KeyedStore Aspect)} {elements : List (EngineElement υ)}
    (hfirst : build builders (hosts number) number engine plan.cache plan.apart = .ok (e, store))
    (hrest : buildAll builders hosts (number + 1) rest (e.addTo store shared) = .ok (elements, built)) :
    buildAll builders hosts number ((engine, plan) :: rest) shared = .ok (e :: elements, built) := by
  rw [buildAll, hfirst]
  change (buildAll builders hosts (number + 1) rest (e.addTo store shared) >>=
    fun made => pure (e :: made.1, made.2)) = _
  rw [hrest]
  rfl

/-- What an element comes with is its store and its pool. -/
theorem addTo_spec (e : EngineElement υ) (store : Option (KeyedStore Aspect)) (shared : Shared υ) :
    (e.addTo store shared).results = store.elim shared.results (shared.results.put e.number) ∧
      (e.addTo store shared).queue = shared.queue ∧ (e.addTo store shared).user = shared.user := by
  unfold addTo
  cases store <;> simp only <;> split <;> exact ⟨rfl, rfl, rfl⟩

/-- Elements that are built are numbered from the first number on, and nothing else is added to what is
kept between flows than empty stores and pools. -/
theorem buildAll_spec {builders : Builders} {hosts : Nat → Host} {number : Nat}
    {plans : List (Engine υ × EnginePlan)}
    {shared built : Shared υ} {elements : List (EngineElement υ)}
    (hbuild : buildAll builders hosts number plans shared = .ok (elements, built)) :
    elements.map EngineElement.number = List.range' number plans.length ∧
      elements.map EngineElement.engine = plans.map Prod.fst ∧
      built.queue = shared.queue ∧ built.user = shared.user ∧
      ∀ good, (∀ n store, shared.results.lookup n = some store → store.Keeps good) →
        ∀ n store, built.results.lookup n = some store → store.Keeps good := by
  induction plans generalizing number shared elements with
  | nil =>
    cases hbuild
    exact ⟨rfl, rfl, rfl, rfl, fun _ h => h⟩
  | cons first rest ih =>
    obtain ⟨engine, plan⟩ := first
    obtain ⟨⟨e, store⟩, hfirst, hbuild⟩ := exists_of_bind_eq_ok hbuild
    obtain ⟨⟨others, later⟩, hrest, hbuild⟩ := exists_of_bind_eq_ok hbuild
    cases hbuild
    obtain ⟨he, -, hempty⟩ := build_spec hfirst
    obtain ⟨hresults, hqueue, huser⟩ := e.addTo_spec store shared
    obtain ⟨hnumbers, hengines, hlaterQueue, hlaterUser, hstores⟩ := ih hrest
    refine ⟨?_, ?_, hlaterQueue.trans hqueue, hlaterUser.trans huser, ?_⟩
    · rw [List.map_cons, hnumbers, he, List.length_cons, List.range'_succ]
    · rw [List.map_cons, hengines, he, List.map_cons]
    · intro good hgood
      apply hstores good
      intro n held hheld
      rw [hresults] at hheld
      cases store with
      | none => exact hgood n held hheld
      | some made =>
        replace hheld := (Table.lookup_put _ _ _ _).symm.trans hheld
        split at hheld
        · cases hheld
          exact hempty _ rfl good
        · exact hgood n held hheld

end EngineElement

/-- The elements of a pipeline that is built are those of its stages. -/
theorem Pipeline.elements_of_build {settings : PipelineSettings} {stages : List (Stage υ)}
    {p : Pipeline υ} (h : Pipeline.build settings stages = .ok p) : p.elements = elementsOf stages := by
  have hcheck : ∀ {stage checked : Stage υ}, checkGroup settings stage = .ok checked →
      checked.elements = stage.elements := by
    intro stage checked hstage
    unfold checkGroup at hstage
    split at hstage
    · cases hstage
    · split at hstage
      · cases hstage
      · split at hstage <;> cases hstage <;> rfl
    · cases hstage
      rfl
  have hall : ∀ (stages : List (Stage υ)) {checked : List (Stage υ)},
      stages.mapM (checkGroup settings) = .ok checked → elementsOf checked = elementsOf stages := by
    intro stages
    induction stages with
    | nil =>
      intro checked hchecked
      cases hchecked
      rfl
    | cons stage rest ih =>
      intro checked hchecked
      rw [List.mapM_cons] at hchecked
      obtain ⟨first, hfirst, hchecked⟩ := exists_of_bind_eq_ok hchecked
      obtain ⟨others, hothers, hchecked⟩ := exists_of_bind_eq_ok hchecked
      cases hchecked
      exact congrArg₂ (· ++ ·) (hcheck hfirst) (ih hothers)
  obtain ⟨-, -, h⟩ := exists_of_bind_eq_ok h
  obtain ⟨checked, hchecked, h⟩ := exists_of_bind_eq_ok h
  cases hmissing : firstMissing [] checked with
  | some fault =>
    rw [hmissing] at h
    cases h
  | none =>
    rw [hmissing] at h
    cases h
    exact hall stages hchecked

/-- A session of engines begins as it is built. -/
theorem Session.begins_of_build {builders : Builders} {hosts : Nat → Host} {settings : PipelineSettings}
    {plans : List (Engine υ × EnginePlan)} {stages : List (Stage υ)} {user : υ}
    {engines : List (EngineElement υ)} {shared : Shared υ} {pipeline : Pipeline υ}
    (hengines : EngineElement.buildAll builders hosts 0 plans { user } = .ok (engines, shared))
    (hstages : ∀ x ∈ elementsOf stages, ∃ e ∈ engines, x = e.toElement)
    (hpipeline : Pipeline.build settings stages = .ok pipeline) :
    ({ pipeline, engines, shared } : Session υ).Begins := by
  obtain ⟨hnumbers, -, hqueue, -, hstores⟩ := EngineElement.buildAll_spec hengines
  refine
    { numbers := ?_
      elements := ?_
      stores := ?_
      queue := hqueue
      flows := rfl }
  · rw [hnumbers]
    exact List.nodup_range'
  · rw [Pipeline.elements_of_build hpipeline]
    exact hstages
  · intro e _ good store hstore
    refine hstores good ?_ e.number store hstore
    intro n held hheld
    cases hheld

/-! ## Flows -/

/-- A flow that is there after another was changed is that one or was there before. -/
theorem eq_or_getElem?_of_modify {flows : List Flow} {i j : Nat} {after other : Flow}
    (h : (flows.modify i fun _ => after)[j]? = some other) :
    (j = i ∧ other = after) ∨ flows[j]? = some other := by
  rw [List.getElem?_modify] at h
  obtain ⟨flow, hflow, hother⟩ := Option.map_eq_some_iff.mp h
  by_cases hsame : i = j
  · rw [if_pos hsame] at hother
    exact Or.inl ⟨hsame.symm, hother.symm⟩
  · rw [if_neg hsame] at hother
    rw [← hother]
    exact Or.inr hflow

/-- A flow that is there after one was added is that one or was there before. -/
theorem eq_or_getElem?_of_concat {flows : List Flow} {j : Nat} {added other : Flow}
    (h : (flows ++ [added])[j]? = some other) :
    (j = flows.length ∧ other = added) ∨ flows[j]? = some other := by
  rcases Nat.lt_trichotomy j flows.length with hlt | heq | hgt
  · rw [List.getElem?_append_left hlt] at h
    exact Or.inr h
  · rw [heq, List.getElem?_concat_length] at h
    exact Or.inl ⟨heq, (Option.some.inj h).symm⟩
  · rw [List.getElem?_eq_none (by rw [List.length_append]; exact hgt)] at h
    cases h

/-- The evidence of flows is the same if a flow is changed but not its evidence. -/
theorem map_evidence_modify {flows : List Flow} {i : Nat} {after : Flow}
    (h : (flows.map Flow.evidence)[i]? = some after.evidence) :
    (flows.modify i fun _ => after).map Flow.evidence = flows.map Flow.evidence := by
  rw [List.getElem?_map] at h
  apply List.ext_getElem?
  intro j
  rw [List.getElem?_map, List.getElem?_map, List.getElem?_modify]
  by_cases hsame : i = j
  · subst hsame
    cases hflow : flows[i]? with
    | none => rfl
    | some flow =>
      rw [hflow] at h
      simpa using h.symm
  · simp [hsame]

namespace Session

/-- The flow that a session makes and fills with evidence. -/
def freshFlow (s : Session υ) (evidence : Evidence) : Flow :=
  { id := s.flows.length, evidence := ({} : Evidence).merge evidence }

/-- A flow is made and filled, and stays with the session. -/
theorem createWith_of_open {s : Session υ} (h : s.pipeline.closed = false) (evidence : Evidence) :
    s.createWith evidence =
      (.ok s.flows.length, { s with flows := s.flows ++ [s.freshFlow evidence] }) := by
  simp only [createWith, create, h]
  simp [freshFlow, modify_concat]

/-- A closed session makes no flows. -/
theorem createWith_of_closed {s : Session υ} (h : s.pipeline.closed = true) (evidence : Evidence) :
    s.createWith evidence = (.error .closed, s) := by
  simp only [createWith, create, h]
  rfl

/-- An act runs on the flow of its number and on what is kept between flows. -/
theorem act_of_flow {s : Session υ} {number : Nat} {flow : Flow}
    (hflow : s.flows[number]? = some flow) (act : Act υ Unit) :
    s.act number act =
      ((act.runOn { flow, shared := s.shared }).1,
        { s with
          flows := s.flows.modify number fun _ => (act.runOn { flow, shared := s.shared }).2.flow
          shared := (act.runOn { flow, shared := s.shared }).2.shared }) := by
  unfold Session.act flow?
  rw [hflow]
  rfl

end Session

/-! ## Deeds -/

/-- What is done with a session. -/
inductive Deed where
  /-- A flow is made and filled with evidence. -/
  | make (evidence : Evidence)
  /-- A flow is processed. -/
  | process (flow : Nat)
  /-- Other code sets a property of a result object of a flow. -/
  | set (flow : Nat) (object : ObjectId) (name : String) (value : Json)
  /-- A flow is stopped. -/
  | stop (flow : Nat)
  /-- The jobs that wait are run. -/
  | runQueue
  /-- The jobs that wait are dropped. -/
  | dropQueue

namespace Session

/-- Lets an act run on a flow, if the flow is there. -/
def actOn (s : Session υ) (flow : Nat) (act : Act υ Unit) : Session υ :=
  if flow < s.flows.length then (s.act flow act).2 else s

/-- The session after a deed. -/
def after (s : Session υ) : Deed → Session υ
  | .make evidence => (s.createWith evidence).2
  | .process flow => s.actOn flow s.pipeline.process
  | .set flow object name value => s.actOn flow (Act.modifyObject object (·.set name value))
  | .stop flow => s.actOn flow Act.stop
  | .runQueue => s.runQueue.2
  | .dropQueue => s.dropQueue

/-- The session after deeds, one after the other. -/
def afterAll (s : Session υ) (deeds : List Deed) : Session υ := deeds.foldl after s

/-- A flow that is made and processed stays with the session as it is then. -/
theorem after_process_of_make {s : Session υ} (hopen : s.pipeline.closed = false)
    {evidence : Evidence} {number : Nat} (hnumber : number = s.flows.length)
    {ended : Except Halt Unit} {scene : Scene υ}
    (hrun : s.pipeline.process.runOn { flow := s.freshFlow evidence, shared := s.shared } =
      (ended, scene)) :
    (s.after (.make evidence)).after (.process number) =
      { s with flows := s.flows ++ [scene.flow], shared := scene.shared } := by
  subst hnumber
  have hmade : s.after (.make evidence) = { s with flows := s.flows ++ [s.freshFlow evidence] } := by
    rw [after, createWith_of_open hopen]
  have hflow : (s.flows ++ [s.freshFlow evidence])[s.flows.length]? = some (s.freshFlow evidence) :=
    List.getElem?_concat_length
  have hthere : s.flows.length < (s.flows ++ [s.freshFlow evidence]).length := by simp
  rw [hmade, after, actOn, if_pos hthere, act_of_flow hflow, hrun]
  simp only [modify_concat]

end Session

end EvidenceFlow
