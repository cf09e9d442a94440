import EvidenceFlow.Proofs.Engine.Caching

/-!
# Built pipelines with and without stores

What holds of pipelines of engines at work holds of those that are built: stores are built empty, and
the checks of a pipeline do not look at stores.
-/

namespace EvidenceFlow

variable {υ : Type}

/-! ## Stores are built empty -/

namespace EngineOrder

/-- The element of an order is built as it is described, and its store, if it has one, holds nothing. -/
theorem build_spec {builders : Builders} {host : Host} {o : EngineOrder υ} {e : EngineElement υ}
    {store : Option (KeyedStore Aspect)}
    (h : EngineElement.build builders host o.number o.engine o.cache none = .ok (e, store)) :
    e = o.element ∧ ∀ built, store = some built → ∀ good, built.Keeps good := by
  obtain ⟨he, hdirect, hempty⟩ := EngineElement.build_spec h
  rw [hdirect rfl] at he
  exact ⟨he, hempty⟩

variable {orders : List (EngineOrder υ)} {outcome : Nat → Fingerprint → Outcome}

/-- An empty store is added for one of the orders. -/
theorem stocked_addTo (hnumbers : (orders.map number).Nodup) {shared : Shared υ}
    (h : ∀ p ∈ orders, p.element.Stocked (outcome p.number) shared) {o : EngineOrder υ}
    (ho : o ∈ orders) {store : Option (KeyedStore Aspect)}
    (hempty : ∀ built, store = some built → ∀ good, built.Keeps good) :
    ∀ p ∈ orders, p.element.Stocked (outcome p.number) (o.element.addTo store shared) := by
  intro p hp
  cases store with
  | none => exact h p hp
  | some built =>
    by_cases heq : p.number = o.number
    · obtain rfl := List.inj_on_of_nodup_map hnumbers hp ho heq
      intro held hheld
      have hput : (p.element.addTo (some built) shared).results.lookup p.element.number = some built :=
        (Table.lookup_put _ _ _ _).trans (if_pos rfl)
      rw [hput] at hheld
      cases hheld
      exact hempty built rfl _
    · exact (h p hp).congr ((Table.lookup_put _ _ _ _).trans (if_neg heq))

/-- Elements are built as they are described, and their stores hold nothing. -/
theorem buildAll_spec (hnumbers : (orders.map number).Nodup) {builders : Builders} {hosts : Nat → Host}
    (sub : List (EngineOrder υ)) (hsub : ∀ o ∈ sub, o ∈ orders) {shared built : Shared υ}
    {elements : List (EngineElement υ)}
    (h : ∀ p ∈ orders, p.element.Stocked (outcome p.number) shared)
    (hbuild : buildAll builders hosts sub shared = .ok (elements, built)) :
    elements = sub.map element ∧ built.user = shared.user ∧
      ∀ p ∈ orders, p.element.Stocked (outcome p.number) built := by
  induction sub generalizing shared elements with
  | nil =>
    cases hbuild
    exact ⟨rfl, rfl, h⟩
  | cons o rest ih =>
    obtain ⟨⟨e, store⟩, hfirst, hbuild⟩ := exists_of_bind_eq_ok hbuild
    obtain ⟨⟨others, later⟩, hrest, hbuild⟩ := exists_of_bind_eq_ok hbuild
    obtain ⟨rfl, hempty⟩ := build_spec hfirst
    cases hbuild
    have hadded := stocked_addTo hnumbers h (hsub o (by simp)) hempty
    obtain ⟨rfl, huser, hstocked⟩ := ih (fun p hp => hsub p (List.mem_cons_of_mem _ hp)) hadded hrest
    refine ⟨rfl, huser.trans ?_, hstocked⟩
    cases store <;> rfl

/-- Elements without stores can be built whatever the builders and the hosts are. -/
theorem buildAll_uncached (builders : Builders) (hosts : Nat → Host) (sub : List (EngineOrder υ))
    (shared : Shared υ) :
    buildAll builders hosts (sub.map uncached) shared =
      .ok ((sub.map uncached).map element, shared) := by
  induction sub with
  | nil => rfl
  | cons o rest ih =>
    rw [List.map_cons, buildAll]
    change (buildAll builders hosts (rest.map uncached) shared >>= fun built =>
      Except.ok (o.uncached.element :: built.1, built.2)) = _
    rw [ih]
    rfl

end EngineOrder

/-! ## Checks -/

/-- A pipeline is built if its settings are valid, its groups have allowed sizes and no predecessor is
missing. -/
theorem Pipeline.build_eq_ok_iff {settings : PipelineSettings} {stages : List (Stage υ)}
    {p : Pipeline υ} :
    Pipeline.build settings stages = .ok p ↔
      settings.validate = .ok () ∧ ∃ checked, stages.mapM (checkGroup settings) = .ok checked ∧
        firstMissing [] checked = none ∧ p = { stages := checked, settings } := by
  constructor
  · intro h
    obtain ⟨⟨⟩, hvalid, h⟩ := exists_of_bind_eq_ok h
    obtain ⟨checked, hchecked, h⟩ := exists_of_bind_eq_ok h
    refine ⟨hvalid, checked, hchecked, ?_⟩
    cases hmissing : firstMissing [] checked with
    | some fault =>
      rw [hmissing] at h
      cases h
    | none =>
      rw [hmissing] at h
      cases h
      exact ⟨rfl, rfl⟩
  · rintro ⟨hvalid, checked, hchecked, hmissing, rfl⟩
    simp only [Pipeline.build, hvalid, hchecked, bind, Except.bind]
    rw [hmissing]
    rfl

namespace OrderStage

/-- A stage that passes the check of its size is one of the same orders, and passes it without stores
as well. -/
theorem exists_of_checkGroup {settings : PipelineSettings} {s : OrderStage υ} {checked : Stage υ}
    (h : Pipeline.checkGroup settings s.stage = .ok checked) :
    ∃ t : OrderStage υ, checked = t.stage ∧ t.orders = s.orders ∧
      Pipeline.checkGroup settings s.uncached.stage = .ok t.uncached.stage := by
  cases s with
  | single o =>
    cases h
    exact ⟨.single o, rfl, rfl, rfl⟩
  | parallel group =>
    rcases group with _ | ⟨first, _ | ⟨second, rest⟩⟩
    · cases h
    · simp only [stage, List.map_cons, List.map_nil, Pipeline.checkGroup] at h
      split at h
      · cases h
      · next hsize =>
        cases h
        refine ⟨.single first, rfl, rfl, ?_⟩
        exact if_neg hsize
    · simp only [stage, List.map_cons, Pipeline.checkGroup] at h
      split at h
      · cases h
      · next hsize =>
        cases h
        refine ⟨.parallel (first :: second :: rest), rfl, rfl, ?_⟩
        refine if_neg ?_
        simpa using hsize

/-- Stages that pass the check of their sizes are of the same orders. -/
theorem exists_of_mapM_checkGroup {settings : PipelineSettings} (stages : List (OrderStage υ))
    {checked : List (Stage υ)}
    (h : (stages.map stage).mapM (Pipeline.checkGroup settings) = .ok checked) :
    ∃ kept : List (OrderStage υ), checked = kept.map stage ∧ ordersOf kept = ordersOf stages ∧
      ((stages.map uncached).map stage).mapM (Pipeline.checkGroup settings) =
        .ok ((kept.map uncached).map stage) := by
  induction stages generalizing checked with
  | nil =>
    cases h
    exact ⟨[], rfl, rfl, rfl⟩
  | cons s rest ih =>
    simp only [List.map_cons, List.mapM_cons] at h ⊢
    obtain ⟨first, hfirst, h⟩ := exists_of_bind_eq_ok h
    obtain ⟨others, hothers, h⟩ := exists_of_bind_eq_ok h
    cases h
    obtain ⟨t, rfl, horders, hplain⟩ := exists_of_checkGroup hfirst
    obtain ⟨kept, rfl, hkept, hplainRest⟩ := ih hothers
    refine ⟨t :: kept, rfl, ?_, ?_⟩
    · exact congrArg₂ (· ++ ·) horders hkept
    · rw [hplain, hplainRest]
      rfl

/-- What is required of the order of elements is the same without stores. -/
theorem firstMissing_uncached (stages : List (OrderStage υ)) (seen : List String) :
    Pipeline.firstMissing seen ((stages.map uncached).map stage) =
      Pipeline.firstMissing seen (stages.map stage) := by
  induction stages generalizing seen with
  | nil => rfl
  | cons s rest ih =>
    have hmissing : ∀ o : EngineOrder υ, Pipeline.missingOf seen o.uncached.element.toElement =
        Pipeline.missingOf seen o.element.toElement := by
      intro o
      unfold Pipeline.missingOf
      rw [EngineOrder.requires_element, EngineOrder.requires_element, EngineOrder.key_element,
        EngineOrder.key_element]
      rfl
    have hfind : s.uncached.stage.elements.findSome? (Pipeline.missingOf seen) =
        s.stage.elements.findSome? (Pipeline.missingOf seen) := by
      rw [elements_stage, elements_stage, orders_uncached, List.map_map, List.findSome?_map,
        List.findSome?_map]
      exact congrArg (s.orders.findSome? ·) (funext hmissing)
    have hkeys : s.uncached.stage.elements.map (·.key) = s.stage.elements.map (·.key) := by
      rw [elements_stage, elements_stage, orders_uncached, keys_uncached]
    simp only [List.map_cons, Pipeline.firstMissing]
    rw [hfind, hkeys, ih]

end OrderStage

/-! ## Built sessions -/

namespace Session

open EngineOrder

/-- What is built with stores can be built without them, and the two are twins. -/
theorem exists_twin {builders : Builders} {hosts : Nat → Host} {settings : PipelineSettings}
    {stages : List (OrderStage υ)} {user : υ} {outcome : Nat → Fingerprint → Outcome}
    (hsettled : Settled (ordersOf stages) outcome) {s : Session υ}
    (hbuild : Session.ofOrders builders hosts settings stages user = .ok s) :
    ∃ t kept, Session.ofOrders builders hosts settings (stages.map OrderStage.uncached) user = .ok t ∧
      ordersOf kept = ordersOf stages ∧ Twins kept outcome user s t ∧ s.shared.user = user := by
  obtain ⟨⟨engines, shared⟩, hengines, hbuild⟩ := exists_of_bind_eq_ok hbuild
  obtain ⟨pipeline, hpipeline, hbuild⟩ := exists_of_bind_eq_ok hbuild
  cases hbuild
  have hempty : ∀ p ∈ ordersOf stages, p.element.Stocked (outcome p.number)
      ({ user } : Shared υ) := by
    intro p _ store hstore
    cases hstore
  obtain ⟨-, huser, hstocked⟩ :=
    buildAll_spec hsettled.numbers _ (fun o ho => ho) hempty hengines
  obtain ⟨hvalid, checked, hchecked, hmissing, rfl⟩ := Pipeline.build_eq_ok_iff.mp hpipeline
  obtain ⟨kept, rfl, horders, hplain⟩ := OrderStage.exists_of_mapM_checkGroup stages hchecked
  have hfirst : Kept (ordersOf kept) outcome user shared := by
    rw [horders]
    refine ⟨hstocked, ?_⟩
    intro log _ o _ _ _ filter cache _ _ key
    rw [huser]
    exact Nat.le_add_right _ _
  have hplainFirst : Kept ((ordersOf kept).map uncached) outcome user { user } := by
    refine ⟨?_, ?_⟩
    · intro o _ store hstore
      cases hstore
    · intro log _ o _ _ _ filter cache hstore
      cases hstore
  have hcommute : ordersOf (stages.map OrderStage.uncached) = (ordersOf stages).map uncached := by
    unfold ordersOf
    rw [List.flatMap_map, List.map_flatMap]
    exact congrArg (List.flatMap · stages) (funext OrderStage.orders_uncached)
  have hbuilt : Pipeline.build settings ((stages.map OrderStage.uncached).map OrderStage.stage) =
      .ok { stages := (kept.map OrderStage.uncached).map OrderStage.stage, settings } := by
    refine Pipeline.build_eq_ok_iff.mpr ⟨hvalid, _, hplain, ?_, rfl⟩
    rw [OrderStage.firstMissing_uncached, hmissing]
  refine ⟨{ pipeline := { stages := (kept.map OrderStage.uncached).map OrderStage.stage, settings }
            engines := ((ordersOf stages).map uncached).map element
            shared := { user } }, kept, ?_, horders, ?_, huser⟩
  · rw [Session.ofOrders, hcommute, buildAll_uncached, hbuilt]
    rfl
  · exact ⟨rfl, rfl, rfl, rfl, rfl, hfirst, hplainFirst⟩

/-- A pipeline of determined engines with a key each ends every flow of every sequence with the same
data, incidents and answer whether its engines have stores of results or not, and wherever these place
fingerprints. An engine with a segmented store that never fails is called at most once for a fingerprint
over the whole sequence, if nothing has been pushed out of the store. -/
theorem runAll_eq_uncached {builders : Builders} {hosts : Nat → Host} {settings : PipelineSettings}
    {stages : List (OrderStage υ)} {user : υ} {outcome : Nat → Fingerprint → Outcome}
    (hnumbers : ((ordersOf stages).map EngineOrder.number).Nodup)
    (hkeys : ((ordersOf stages).map fun o => o.engine.key).Nodup)
    (hdetermined : ∀ o ∈ ordersOf stages, o.engine.Determined (outcome o.number)) {s : Session υ}
    (hbuild : Session.ofOrders builders hosts settings stages user = .ok s) :
    ∃ t, Session.ofOrders builders hosts settings (stages.map OrderStage.uncached) user = .ok t ∧
      ∀ evidences,
        (s.runAll evidences).1 = (t.runAll evidences).1 ∧
        (s.runAll evidences).2.flows = (t.runAll evidences).2.flows ∧
        ∀ log, (∀ o ∈ ordersOf stages, o.engine.Logs log o.number) →
          ∀ o ∈ ordersOf stages, o.cache.isSome → (∀ key, (outcome o.number key).result = .ok ()) →
            ∀ filter cache,
              (s.runAll evidences).2.shared.results.lookup o.number =
                some { filter, store := .lru cache } → cache.evictions = 0 →
              ∀ key, (log (s.runAll evidences).2.shared.user o.number).count key ≤
                (log user o.number).count key + 1 := by
  have hsettled : Settled (ordersOf stages) outcome := ⟨hnumbers, hdetermined⟩
  obtain ⟨t, kept, ht, horders, htwins, -⟩ := exists_twin hsettled hbuild
  refine ⟨t, ht, fun evidences => ?_⟩
  rw [← horders] at hsettled hkeys
  obtain ⟨hanswers, hend⟩ := htwins.runAll hsettled hkeys evidences
  refine ⟨hanswers, hend.flows.symm, ?_⟩
  rw [← horders]
  intro log hlogs o ho hcache hok filter cache hstore hroom key
  have hbound := hend.kept.thrifty log hlogs o ho hcache hok filter cache hstore hroom key
  refine Nat.le_trans hbound (Nat.add_le_add_left ?_ _)
  split <;> omega

/-- An engine that writes the size of the fingerprint and notes each call. -/
def tallyEngine : Engine (List Fingerprint) where
  key := "tally"
  name := "tally"
  filter := .all
  run object := do
    let key := Fingerprint.ofEvidence .all (← get).flow.evidence
    Act.onShared fun shared => ((), { shared with user := shared.user ++ [key] })
    Act.modifyObject object (·.set "parts" (.int key.size))

/-- What the engine does for a fingerprint, whatever its number is. -/
def tallyOutcome (_ : Nat) (key : Fingerprint) : Outcome :=
  { writes := [("parts", .int key.size)] }

/-- The engine is ordered with a store of two segments. -/
def tallyOrder : EngineOrder (List Fingerprint) :=
  { number := 0, engine := tallyEngine, cache := some { size := 4, concurrency := .exactly 2 } }

/-- The engine that notes its calls does so at most once for a fingerprint if it has a store. -/
theorem runAll_eq_uncached_of_tallyOrder :
    ∃ s t, Session.ofOrders {} (fun _ => .bySize) {} [.single tallyOrder] [] = .ok s ∧
      Session.ofOrders {} (fun _ => .bySize) {} [.single tallyOrder.uncached] [] = .ok t ∧
      ∀ evidences,
        (s.runAll evidences).1 = (t.runAll evidences).1 ∧
        (s.runAll evidences).2.flows = (t.runAll evidences).2.flows ∧
        ∀ filter cache,
          (s.runAll evidences).2.shared.results.lookup 0 = some { filter, store := .lru cache } →
          cache.evictions = 0 → ∀ key, (s.runAll evidences).2.shared.user.count key ≤ 1 := by
  have hdetermined : ∀ o ∈ ordersOf [.single tallyOrder],
      o.engine.Determined (tallyOutcome o.number) := by
    intro o ho
    obtain rfl : o = tallyOrder := by simpa [ordersOf, OrderStage.orders] using ho
    exact fun _ _ => ⟨_, rfl⟩
  have hbuild : Session.ofOrders {} (fun _ => .bySize) {} [.single tallyOrder] [] = .ok _ := rfl
  have hnumbers : ((ordersOf [.single tallyOrder]).map EngineOrder.number).Nodup := by decide
  have hkeys : ((ordersOf [.single tallyOrder]).map fun o => o.engine.key).Nodup := by decide
  obtain ⟨t, ht, hsame⟩ := runAll_eq_uncached hnumbers hkeys hdetermined hbuild
  refine ⟨_, t, hbuild, ht, fun evidences => ?_⟩
  obtain ⟨hanswers, hflows, hcalls⟩ := hsame evidences
  refine ⟨hanswers, hflows, ?_⟩
  have hlogs : ∀ o ∈ ordersOf [.single tallyOrder],
      o.engine.Logs (fun user number => if number = 0 then user else []) o.number := by
    intro o ho object scene
    obtain rfl : o = tallyOrder := by simpa [ordersOf, OrderStage.orders] using ho
    funext number
    by_cases hzero : number = 0
    · subst hzero
      rfl
    · have hother : number ≠ tallyOrder.number := hzero
      rw [Function.update_of_ne hother]
      exact (if_neg hzero).trans (if_neg hzero).symm
  exact hcalls _ hlogs tallyOrder (by simp [ordersOf, OrderStage.orders]) rfl (fun _ => rfl)

end Session

end EvidenceFlow
