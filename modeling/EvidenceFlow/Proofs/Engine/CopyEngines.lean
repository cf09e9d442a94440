import EvidenceFlow.Proofs.Engine.Notes
import EvidenceFlow.Proofs.Engine.Sessions
import EvidenceFlow.Proofs.Pipeline.Stages

/-!
# Two engines that share their data

The first engine copies a value of evidence to the property `x`, the second one copies another value to
`y` of the same data and has a store of results. The result that is kept of the second engine holds what
the first one has left: a later flow, with other evidence for the first engine only, comes to hold it.
-/

namespace EvidenceFlow

/-! ## Engines that copy -/

/-- What is written if a value of evidence is copied to a property of a result object. -/
def copied (source property : String) (object : ObjectId) (flow : Flow) : List Write :=
  match flow.object? object, flow.evidence.get? source with
  | some _, some value => [{ object, name := property, value }]
  | _, _ => []

/-- What an engine that copies a value notes of a call. -/
def copyNote (number : Nat) (source : String) (object : ObjectId) (flow : Flow)
    (writes : List Write) : Note :=
  { element := number, flow := flow.id
    key := .ofEvidence (.whitelist (.ofKeys [source])) flow.evidence
    object, found := flow.held object, writes, succeeded := true }

/-- An engine that copies a value of evidence to a property of the data `device`, and notes its
calls. -/
def copyEngine (number : Nat) (source property : String) : Engine (List Note) where
  key := "device"
  name := source
  filter := .whitelist (.ofKeys [source])
  run object := do
    let flow := (← get).flow
    let writes := copied source property object flow
    let note := copyNote number source object flow writes
    Act.onShared fun shared => ((), { shared with user := shared.user ++ [note] })
    Act.modifyObject object fun a => writes.foldl (fun a w => a.set w.name w.value) a

/-- The engine that copies a value notes its calls. -/
theorem copyEngine_notes (number : Nat) {source property : String}
    (hproperty : Text.lowercase property = property) :
    (copyEngine number source property).Notes id number := by
  intro object scene
  refine ⟨copyNote number source object scene.flow (copied source property object scene.flow),
    rfl, rfl, rfl, rfl, rfl, rfl, rfl, ?_, rfl, rfl, rfl, rfl⟩
  intro other
  change (scene.flow.modifyObject object fun a =>
    (copied source property object scene.flow).foldl (fun a w => a.set w.name w.value) a).held other = _
  unfold copyNote copied
  cases hobject : scene.flow.object? object with
  | none =>
    rw [Flow.modifyObject_of_none hobject]
    rfl
  | some a =>
    cases scene.flow.evidence.get? source with
    | none => exact Flow.held_modifyObject_of_same (fun a => rfl) _ _ _
    | some value =>
      refine (Flow.held_set hobject property value other).trans ?_
      rw [hproperty]
      by_cases hsame : other = object
      · simp [Note.into, Table.putAll, hsame]
      · simp [Note.into, Table.putAll, hsame, Ne.symm hsame]

/-- The engine that copies a value sets the property if the value is there. -/
theorem runOn_copyEngine (number : Nat) {source property : String} {object : ObjectId}
    {flow : Flow} {shared : Shared (List Note)} {a : Aspect} {value : Json}
    (hobject : flow.object? object = some a) (hvalue : flow.evidence.get? source = some value) :
    ((copyEngine number source property).run object).runOn { flow, shared } =
      (.ok (),
        { flow := flow.modifyObject object (·.set property value)
          shared := { shared with
            user := shared.user ++
              [copyNote number source object flow [{ object, name := property, value }]] } }) := by
  have hcopied : copied source property object flow = [{ object, name := property, value }] := by
    rw [copied, hobject, hvalue]
  change (Except.ok (), _) = _
  rw [hcopied]
  rfl

/-! ## Their session -/

/-- Two engines that share their data, the second of which has a store of results. -/
def copyPlans : List (Engine (List Note) × EnginePlan) :=
  [(copyEngine 0 "a" "x", {}), (copyEngine 1 "b" "y", { cache := some { size := 4 } })]

/-- The element of the first engine. -/
def firstCopy : EngineElement (List Note) := { number := 0, engine := copyEngine 0 "a" "x" }

/-- The element of the second engine. -/
def secondCopy : EngineElement (List Note) :=
  { number := 1, engine := copyEngine 1 "b" "y", cached := true }

/-- What is kept between flows: the notes, and the results of the second engine. -/
def copyShared (user : List Note) (store : KeyedStore Aspect) : Shared (List Note) :=
  { user, results := [(1, store)] }

/-- The two engines at work. -/
def copySession (flows : List Flow) (user : List Note) (store : KeyedStore Aspect) :
    Session (List Note) where
  pipeline := { stages := [firstCopy, secondCopy].map fun e => .single e.toElement }
  engines := [firstCopy, secondCopy]
  flows
  shared := copyShared user store

/-- The two engines can be built, with a store that holds nothing. -/
theorem buildAll_copyPlans :
    ∃ (filter : Filter) (cache : Lru Fingerprint Aspect),
      EngineElement.buildAll {} (fun _ => .bySize) 0 copyPlans { user := [] } =
        .ok ([firstCopy, secondCopy], copyShared [] { filter, store := .lru cache }) ∧
      cache.Sound ∧ ∀ key, cache.peek? key = none := by
  obtain ⟨cache, hcache⟩ : ∃ cache : Lru Fingerprint Aspect,
      ({} : Builders).build .bySize { size := 4 } (.whitelist (.ofKeys ["b"])) =
        .ok { filter := .whitelist (.ofKeys ["b"]), store := .lru cache } := ⟨_, rfl⟩
  have hkeeps : cache.Keeps fun _ _ => False := KeyedStore.keeps_of_build hcache cache rfl
  have hsecond : EngineElement.build {} .bySize 1 (copyEngine 1 "b" "y") (some { size := 4 }) none = _ :=
    EngineElement.build_of_store hcache 1
  refine ⟨.whitelist (.ofKeys ["b"]), cache, ?_, hkeeps.sound, ?_⟩
  · exact EngineElement.buildAll_cons rfl (EngineElement.buildAll_cons hsecond rfl)
  · intro key
    cases hheld : cache.peek? key with
    | none => rfl
    | some a => exact (hkeeps.good key a hheld).elim

/-! ## Its flows -/

/-- Evidence with a value for each of the engines. -/
@[irreducible]
def copyEvidence (x y : Json) : Evidence := .ofList [("a", x), ("b", y)]

/-- The evidence has two entries. -/
theorem copyEvidence_eq (x y : Json) :
    copyEvidence x y = { entries := [⟨"a", x⟩, ⟨"b", y⟩], index := [("a", 0), ("b", 1)] } := by
  have ha : Text.lowercase "a" = "a" := by decide
  have hb : Text.lowercase "b" = "b" := by decide
  simp [copyEvidence, Evidence.ofList, Evidence.addAll, Evidence.add, Evidence.reindexed,
    Evidence.isIndexed, Evidence.empty, Table.put, List.lookup_cons, ha, hb]

/-- A flow that is given the evidence has it. -/
theorem merge_copyEvidence (x y : Json) :
    ({} : Evidence).merge (copyEvidence x y) = copyEvidence x y := by
  have hlist := copyEvidence_eq x y
  rw [copyEvidence] at hlist
  rw [Evidence.merge, copyEvidence_eq x y]
  exact hlist

/-- Each engine finds its value. -/
theorem get?_copyEvidence (x y : Json) :
    (copyEvidence x y).get? "a" = some x ∧ (copyEvidence x y).get? "b" = some y := by
  have ha : Text.lowercase "a" = "a" := by decide
  have hb : Text.lowercase "b" = "b" := by decide
  rw [copyEvidence_eq]
  simp [Evidence.get?, Evidence.position?, Evidence.isIndexed, List.lookup_cons, ha, hb]

/-- The fingerprint under which the second engine keeps its result. -/
def copyKey (x y : Json) : Fingerprint :=
  .ofEvidence (.whitelist (.ofKeys ["b"])) (copyEvidence x y)

/-- The second engine does not see the value for the first. -/
theorem copyKey_congr (x x' y : Json) : copyKey x y = copyKey x' y := by
  have hout : (Filter.whitelist (.ofKeys ["b"])).weight? "a" = none := by decide
  rw [copyKey, copyKey, copyEvidence_eq, copyEvidence_eq]
  simp [Fingerprint.ofEvidence, Fingerprint.partOf?, hout]

/-- The data that the two engines share. -/
def device (engines : List String) (properties : Table String Json) : Aspect :=
  { key := "device", properties, engines }

/-- The first engine writes into new data. -/
theorem set_device_first (x : Json) : (device ["a"] []).set "x" x = device ["a"] [("x", x)] := by
  have hname : Text.lowercase "x" = "x" := by decide
  rw [Aspect.set, hname]
  rfl

/-- The second engine adds its name behind the first. -/
theorem addEngine_device_second (x : Json) :
    (device ["a"] [("x", x)]).addEngine "b" = device ["a", "b"] [("x", x)] := by
  simp [Aspect.addEngine, device]

/-- The second engine writes behind the first. -/
theorem set_device_second (x y : Json) :
    (device ["a", "b"] [("x", x)]).set "y" y = device ["a", "b"] [("x", x), ("y", y)] := by
  have hname : Text.lowercase "y" = "y" := by decide
  simp [Aspect.set, device, Table.put, hname]

/-- What is merged overwrites what the first engine has written. -/
theorem merge_device (x x' y : Json) :
    (device ["a"] [("x", x')]).merge (device ["a", "b"] [("x", x), ("y", y)]) =
      device ["a", "b"] [("x", x), ("y", y)] := by
  simp [Aspect.merge, Aspect.addEngine, Aspect.addProperties, device, Table.put]

/-- A flow of which the two engines share the data. -/
def deviceFlow (number : Nat) (x y : Json) (a : Aspect) : Flow :=
  ({ id := number, evidence := copyEvidence x y, processed := true } : Flow).fill "device" a

/-- The data of the flow are changed. -/
theorem modifyObject_deviceFlow (number : Nat) (x y : Json) (a : Aspect) (f : Aspect → Aspect) :
    (deviceFlow number x y a).modifyObject 0 f = deviceFlow number x y (f a) :=
  Flow.modifyObject_fill _ _ _ _

/-- What the first engine notes of a new flow. -/
def firstNote (number : Nat) (x y : Json) : Note :=
  copyNote 0 "a" 0 (deviceFlow number x y (device ["a"] [])) [{ object := 0, name := "x", value := x }]

/-- What the second engine notes of a flow behind the first. -/
def secondNote (number : Nat) (x y : Json) : Note :=
  copyNote 1 "b" 0 (deviceFlow number x y (device ["a", "b"] [("x", x)]))
    [{ object := 0, name := "y", value := y }]

/-- The first engine fills a new flow. -/
theorem runOn_firstCopy (number : Nat) (x y : Json) (user : List Note) (store : KeyedStore Aspect) :
    firstCopy.process.runOn
        { flow := { id := number, evidence := copyEvidence x y, processed := true }
          shared := copyShared user store } =
      (.ok (),
        { flow := deviceFlow number x y (device ["a"] [("x", x)])
          shared := copyShared (user ++ [firstNote number x y]) store }) := by
  have hmade : ({ id := number, evidence := copyEvidence x y, processed := true } : Flow).objectAt
      "device" = (.ok 0, deviceFlow number x y (device [] [])) := Flow.objectAt_of_none rfl
  have hrun : ((copyEngine 0 "a" "x").run 0).runOn
      { flow := deviceFlow number x y (device ["a"] []), shared := copyShared user store } = _ :=
    runOn_copyEngine 0 (Flow.object?_fill _ _ _) (get?_copyEvidence x y).1
  have hopened : (deviceFlow number x y (device [] [])).modifyObject 0
      (fun a => (a.addEngine "a").addProperties []) = deviceFlow number x y (device ["a"] []) :=
    modifyObject_deviceFlow _ _ _ _ _
  rw [modifyObject_deviceFlow, set_device_first, ← hopened] at hrun
  exact firstCopy.runOn_compute_of_direct rfl hmade hrun (Flow.object?_fill _ _ _)

section SecondCopy

variable {store looked : KeyedStore Aspect} {x y : Json}

/-- Without a result the second engine runs, and all that the data hold is kept. -/
theorem runOn_secondCopy_of_nothing (hnothing : store.get (copyKey x y) = (.nothing, looked))
    (number : Nat) (user : List Note) :
    secondCopy.process.runOn
        { flow := deviceFlow number x y (device ["a"] [("x", x)])
          shared := copyShared user store } =
      (.ok (),
        { flow := deviceFlow number x y (device ["a", "b"] [("x", x), ("y", y)])
          shared := copyShared (user ++ [secondNote number x y])
            (looked.put (copyKey x y) (device ["a", "b"] [("x", x), ("y", y)])) }) := by
  have hmade : (deviceFlow number x y (device ["a"] [("x", x)])).objectAt "device" =
      (.ok 0, deviceFlow number x y (device ["a"] [("x", x)])) := Flow.objectAt_fill _ _ _
  have hrun : ((copyEngine 1 "b" "y").run 0).runOn
      { flow := deviceFlow number x y (device ["a", "b"] [("x", x)])
        shared := copyShared user looked } = _ :=
    runOn_copyEngine 1 (Flow.object?_fill _ _ _) (get?_copyEvidence x y).2
  have hopened : (deviceFlow number x y (device ["a"] [("x", x)])).modifyObject 0
      (fun a => (a.addEngine "b").addProperties []) =
        deviceFlow number x y (device ["a", "b"] [("x", x)]) := by
    rw [modifyObject_deviceFlow, addEngine_device_second]
    rfl
  rw [modifyObject_deviceFlow, set_device_second, ← hopened] at hrun
  have hlook : secondCopy.lookIn (some (copyKey x y)) (copyShared user store) =
      (.nothing, copyShared user looked) :=
    congrArg (fun found => (found.1, copyShared user found.2)) hnothing
  have hkey : secondCopy.keyOf (deviceFlow number x y (device ["a"] [("x", x)])) =
      some (copyKey x y) := rfl
  rw [EngineElement.runOn_process_of_miss, hkey, hlook]
  · exact (secondCopy.runOn_compute_of_direct rfl hmade hrun (Flow.object?_fill _ _ _)).trans rfl
  · rw [hkey, hlook]
    intro result hresult
    cases hresult

/-- With a result the second engine does not run, and the data come to hold all of the result. -/
theorem runOn_secondCopy_of_found {a result merged : Aspect}
    (hfound : (store.get (copyKey x y)).1 = .value result) (hmerged : a.merge result = merged)
    (number : Nat) (user : List Note) :
    secondCopy.process.runOn
        { flow := deviceFlow number x y a, shared := copyShared user store } =
      (.ok (),
        { flow := deviceFlow number x y merged
          shared := copyShared user (store.get (copyKey x y)).2 }) := by
  subst hmerged
  have hmade : (deviceFlow number x y a).objectAt secondCopy.engine.key =
      (.ok 0, deviceFlow number x y a) := Flow.objectAt_fill _ _ _
  replace hfound : (secondCopy.lookIn (secondCopy.keyOf (deviceFlow number x y a))
    (copyShared user store)).1 = .value result := hfound
  rw [EngineElement.runOn_process_of_found hfound, hmade]
  simp only [modifyObject_deviceFlow]
  rfl

/-- A flow that is made is processed by the first engine and then by the second. -/
theorem after_process_copies {flows : List Flow} {user noted : List Note} {a : Aspect}
    (hsecond : secondCopy.process.runOn
      { flow := deviceFlow flows.length x y (device ["a"] [("x", x)])
        shared := copyShared (user ++ [firstNote flows.length x y]) store } =
      (.ok (), { flow := deviceFlow flows.length x y a, shared := copyShared noted looked })) :
    ((copySession flows user store).after (.make (copyEvidence x y))).after
        (.process flows.length) =
      copySession (flows ++ [deviceFlow flows.length x y a]) noted looked := by
  have hprocess : (copySession flows user store).pipeline.process.runOn
      { flow := (copySession flows user store).freshFlow (copyEvidence x y)
        shared := copyShared user store } =
      (.ok (), { flow := deviceFlow flows.length x y a, shared := copyShared noted looked }) := by
    have hfirst := runOn_firstCopy flows.length x y user store
    rw [Session.freshFlow, merge_copyEvidence]
    apply Pipeline.runOn_process_of_stages rfl rfl _ rfl
    exact (Pipeline.runOn_runStages_single hfirst rfl).trans
      (Pipeline.runOn_runStages_single hsecond rfl)
  exact Session.after_process_of_make rfl rfl hprocess

end SecondCopy

/-- Two flows are made and processed, one after the other, that differ in the value for the first engine
only. -/
def twoFlows (x x' y : Json) : List Deed :=
  [.make (copyEvidence x y), .process 0, .make (copyEvidence x' y), .process 1]

/-- The second flow comes to hold what the first engine wrote in the first flow. -/
theorem afterAll_twoFlows {cache : Lru Fingerprint Aspect} (hsound : cache.Sound)
    (hempty : ∀ key, cache.peek? key = none) (filter : Filter) (x x' y : Json) :
    ∃ kept,
      (copySession [] [] { filter, store := .lru cache }).afterAll (twoFlows x x' y) =
        copySession
          [deviceFlow 0 x y (device ["a", "b"] [("x", x), ("y", y)]),
            deviceFlow 1 x' y (device ["a", "b"] [("x", x), ("y", y)])]
          [firstNote 0 x y, secondNote 0 x y, firstNote 1 x' y] kept := by
  let left := device ["a", "b"] [("x", x), ("y", y)]
  let store : KeyedStore Aspect := { filter, store := .lru cache }
  let looked : KeyedStore Aspect := { filter, store := .lru (cache.get (copyKey x y)).2 }
  have hnothing : store.get (copyKey x y) = (.nothing, looked) := by
    rw [KeyedStore.get_lru, hsound.get_fst, hempty]
    rfl
  have hlooked : (cache.get (copyKey x y)).2.peek? (copyKey x y) = none := by
    rw [hsound.peek?_get, hempty]
  have hfound : ((looked.put (copyKey x y) left).get (copyKey x y)).1 = .value left :=
    KeyedStore.get_put_self (hsound.answer (.get _)) hlooked filter left
  have hstep : ((copySession [] [] store).after (.make (copyEvidence x y))).after (.process 0) = _ :=
    after_process_copies (runOn_secondCopy_of_nothing hnothing _ _)
  rw [copyKey_congr x x'] at hfound hstep
  refine ⟨((looked.put (copyKey x' y) left).get (copyKey x' y)).2, ?_⟩
  rw [Session.afterAll, twoFlows]
  simp only [List.foldl_cons, List.foldl_nil]
  rw [hstep]
  exact after_process_copies (runOn_secondCopy_of_found hfound (merge_device x x' y) _ _)

end EvidenceFlow
