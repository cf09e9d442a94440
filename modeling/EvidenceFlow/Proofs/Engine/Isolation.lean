import EvidenceFlow.Proofs.Engine.CopyEngines
import EvidenceFlow.Proofs.Engine.Provenance

/-!
# What one flow sees of another

Whatever is done with a session, values in the result objects of a flow come from the flow itself or
from calls whose results were kept. If each such call was alone with its result object, a flow sees of
other flows only what the engines wrote in these calls. And only then: a result that is found brings
along all that the call found.
-/

namespace EvidenceFlow

variable {υ : Type}

/-! ## Sessions -/

/-- What other code set by deeds, by the number of the flow. -/
def setsOf (deeds : List Deed) : List (Nat × Write) :=
  deeds.filterMap fun deed =>
    match deed with
    | .set flow object name value => some (flow, { object, name := Text.lowercase name, value })
    | _ => none

/-- The values of a session come from where they may. -/
structure Session.Traced (log : υ → List Note) (sets : List (Nat × Write)) (s : Session υ) :
    Prop where
  /-- Each number is that of one engine. -/
  numbers : (s.engines.map EngineElement.number).Nodup
  /-- The elements of the pipeline are engines of the session. -/
  elements : ∀ x ∈ s.pipeline.elements, ∃ e ∈ s.engines, x = e.toElement
  /-- Flows are known by their places. -/
  ids : ∀ (i : Nat) (flow : Flow), s.flows[i]? = some flow → flow.id = i
  /-- Result objects hold each property once. -/
  tidy : ∀ (i : Nat) (flow : Flow), s.flows[i]? = some flow → ∀ object, (flow.held object).keys.Nodup
  /-- Values in result objects were written during the flow or left by a call. -/
  origin : ∀ (i : Nat) (flow : Flow), s.flows[i]? = some flow → ∀ w : Write,
    (flow.held w.object).lookup w.name = some w.value →
      w.IsIn (log s.shared.user) sets i ∨ w.IsLeft s.engines (log s.shared.user) flow.evidence
  /-- Results that are kept were left by calls. -/
  stores : ∀ e ∈ s.engines, e.Stores (Note.Leaves (log s.shared.user) e.number) s.shared
  /-- Jobs keep their results where they should. -/
  jobs : ∀ job ∈ s.shared.queue, job.Fits s.engines (s.flows.map Flow.evidence)

/-- A session that has just been built has no values. -/
theorem Session.Begins.traced {s : Session υ} (h : s.Begins) (log : υ → List Note) :
    s.Traced log [] := by
  have hnone : ∀ (i : Nat) (flow : Flow), s.flows[i]? ≠ some flow := by
    intro i flow hflow
    rw [h.flows] at hflow
    cases hflow
  exact
    { numbers := h.numbers
      elements := h.elements
      ids := fun i flow hflow => absurd hflow (hnone i flow)
      tidy := fun i flow hflow => absurd hflow (hnone i flow)
      origin := fun i flow hflow => absurd hflow (hnone i flow)
      stores := fun e he => h.stores e he _
      jobs := by
        rw [h.queue]
        exact fun job hjob => (nomatch hjob) }

namespace Session.Traced

variable {s : Session υ} {log : υ → List Note} {sets : List (Nat × Write)}

/-- A flow of the session with what is kept between flows. -/
theorem scene (h : s.Traced log sets) {i : Nat} {flow : Flow} (hflow : s.flows[i]? = some flow) :
    ({ flow, shared := s.shared } : Scene υ).Traced s.engines log sets (s.flows.map Flow.evidence)
      (log s.shared.user) i where
  id := h.ids i flow hflow
  evidence := by rw [List.getElem?_map, hflow]; rfl
  grown := List.prefix_refl _
  tidy := h.tidy i flow hflow
  origin := h.origin i flow hflow
  stores := h.stores
  jobs := h.jobs

/-- More may have been set. -/
theorem more (h : s.Traced log sets) (later : List (Nat × Write)) : s.Traced log (sets ++ later) :=
  { h with
    origin := by
      intro i flow hflow w hw
      refine (h.origin i flow hflow w hw).imp (fun hin => hin.imp_right fun hset => ?_) id
      exact List.mem_append_left _ hset }

/-- An act on a flow that leaves values where they come from does so in the session. -/
theorem act (h : s.Traced log sets) {i : Nat} (hi : i < s.flows.length) {act : Act υ Unit}
    (hact : ∀ start, act.Preserves
      (Scene.Traced s.engines log sets (s.flows.map Flow.evidence) start i)) :
    (s.act i act).2.Traced log sets ∧
      (s.act i act).2.engines = s.engines ∧
      (s.act i act).2.flows.map Flow.evidence = s.flows.map Flow.evidence := by
  obtain ⟨flow, hflow⟩ : ∃ flow, s.flows[i]? = some flow := ⟨_, List.getElem?_eq_getElem hi⟩
  have hscene := hact (log s.shared.user) { flow, shared := s.shared } (h.scene hflow)
  rw [act_of_flow hflow]
  generalize act.runOn { flow, shared := s.shared } = run at hscene ⊢
  obtain ⟨ended, after⟩ := run
  have hevidences : (s.flows.modify i fun _ => after.flow).map Flow.evidence =
      s.flows.map Flow.evidence :=
    map_evidence_modify hscene.evidence
  refine ⟨?_, rfl, hevidences⟩
  refine
    { numbers := h.numbers
      elements := h.elements
      ids := ?_
      tidy := ?_
      origin := ?_
      stores := hscene.stores
      jobs := ?_ }
  · intro j other hother
    rcases eq_or_getElem?_of_modify hother with ⟨rfl, rfl⟩ | hkept
    · exact hscene.id
    · exact h.ids j other hkept
  · intro j other hother
    rcases eq_or_getElem?_of_modify hother with ⟨rfl, rfl⟩ | hkept
    · exact hscene.tidy
    · exact h.tidy j other hkept
  · intro j other hother w hw
    rcases eq_or_getElem?_of_modify hother with ⟨rfl, rfl⟩ | hkept
    · exact hscene.origin w hw
    · exact (h.origin j other hkept w hw).imp (fun hin => hin.mono hscene.grown)
        fun hleft => hleft.mono hscene.grown
  · intro job hjob
    change job.Fits s.engines ((s.flows.modify i fun _ => after.flow).map Flow.evidence)
    rw [hevidences]
    exact hscene.jobs job hjob

/-! ## Deeds -/

/-- A flow that is made holds no values. -/
theorem make (h : s.Traced log sets) (evidence : Evidence) :
    (s.createWith evidence).2.Traced log sets := by
  cases hclosed : s.pipeline.closed with
  | true =>
    rwa [createWith_of_closed hclosed]
  | false =>
    rw [createWith_of_open hclosed]
    refine
      { numbers := h.numbers
        elements := h.elements
        ids := ?_
        tidy := ?_
        origin := ?_
        stores := h.stores
        jobs := ?_ }
    · intro j other hother
      rcases eq_or_getElem?_of_concat hother with ⟨rfl, rfl⟩ | hkept
      · rfl
      · exact h.ids j other hkept
    · intro j other hother
      rcases eq_or_getElem?_of_concat hother with ⟨rfl, rfl⟩ | hkept
      · exact fun object => List.nodup_nil
      · exact h.tidy j other hkept
    · intro j other hother w hw
      rcases eq_or_getElem?_of_concat hother with ⟨rfl, rfl⟩ | hkept
      · cases hw
      · exact h.origin j other hkept w hw
    · intro job hjob
      obtain ⟨hflow, hsees⟩ := h.jobs job hjob
      constructor
      · simp only [List.map_append, List.length_append]
        omega
      · intro e he hnumber key hkey other hother
        rw [List.map_append, List.getElem?_append_left hflow] at hother
        exact hsees e he hnumber key hkey other hother

/-- An act on a flow that need not be there. -/
theorem actOn (h : s.Traced log sets) (i : Nat) {act : Act υ Unit}
    (hact : ∀ start, act.Preserves
      (Scene.Traced s.engines log sets (s.flows.map Flow.evidence) start i)) :
    (s.actOn i act).Traced log sets ∧ (s.actOn i act).engines = s.engines := by
  unfold Session.actOn
  split
  · next hi =>
    obtain ⟨htraced, hengines, -⟩ := h.act hi hact
    exact ⟨htraced, hengines⟩
  · exact ⟨h, rfl⟩

/-- The engine of a number is one of the session. -/
theorem mem_of_engine? {number : Nat} {e : EngineElement υ} (h : s.engine? number = some e) :
    e ∈ s.engines ∧ e.number = number :=
  ⟨List.mem_of_find?_eq_some h, by simpa using List.find?_some h⟩

/-- A job that is run leaves values where they come from. -/
theorem runJob (h : s.Traced log sets) (hnotes : ∀ e ∈ s.engines, e.engine.Notes log e.number)
    {job : Job} (hfits : job.Fits s.engines (s.flows.map Flow.evidence)) :
    (s.runJob job).2.Traced log sets ∧ (s.runJob job).2.engines = s.engines ∧
      (s.runJob job).2.flows.map Flow.evidence = s.flows.map Flow.evidence := by
  unfold Session.runJob
  cases hengine : s.engine? job.element with
  | none => exact ⟨h, rfl, rfl⟩
  | some e =>
    obtain ⟨he, hnumber⟩ := mem_of_engine? hengine
    obtain ⟨hflow, hsees⟩ := hfits
    rw [List.length_map] at hflow
    exact h.act hflow fun start =>
      Scene.Traced.preserves_runJob (hnotes e he) (hsees e he hnumber)

/-- A job that is dropped leaves values where they come from. -/
theorem dropJob (h : s.Traced log sets) {job : Job}
    (hfits : job.Fits s.engines (s.flows.map Flow.evidence)) :
    (s.dropJob job).Traced log sets ∧ (s.dropJob job).engines = s.engines ∧
      (s.dropJob job).flows.map Flow.evidence = s.flows.map Flow.evidence := by
  unfold Session.dropJob
  cases s.engine? job.element with
  | none => exact ⟨h, rfl, rfl⟩
  | some e =>
    have hflow := hfits.1
    rw [List.length_map] at hflow
    exact h.act hflow fun start => Scene.Traced.preserves_abandon _ _ _

/-- Jobs that are dropped leave values where they come from. -/
theorem dropJobs (jobs : List Job) (h : s.Traced log sets)
    (hfits : ∀ job ∈ jobs, job.Fits s.engines (s.flows.map Flow.evidence)) :
    (s.dropJobs jobs).Traced log sets ∧ (s.dropJobs jobs).engines = s.engines := by
  unfold Session.dropJobs
  induction jobs generalizing s with
  | nil => exact ⟨h, rfl⟩
  | cons job rest ih =>
    obtain ⟨hfirst, hengines, hevidences⟩ := h.dropJob (hfits job (by simp))
    have hrest := ih hfirst fun other hother => by
      rw [hengines, hevidences]
      exact hfits other (List.mem_cons_of_mem _ hother)
    exact ⟨hrest.1, hrest.2.trans hengines⟩

/-- Jobs that are run leave values where they come from, also if one breaks off. -/
theorem runJobs (jobs : List Job) (h : s.Traced log sets)
    (hnotes : ∀ e ∈ s.engines, e.engine.Notes log e.number)
    (hfits : ∀ job ∈ jobs, job.Fits s.engines (s.flows.map Flow.evidence)) :
    (s.runJobs jobs).2.Traced log sets ∧ (s.runJobs jobs).2.engines = s.engines := by
  induction jobs generalizing s with
  | nil => exact ⟨h, rfl⟩
  | cons job rest ih =>
    obtain ⟨hfirst, hengines, hevidences⟩ := h.runJob hnotes (hfits job (by simp))
    have hrest : ∀ other ∈ rest, other.Fits (s.runJob job).2.engines
        ((s.runJob job).2.flows.map Flow.evidence) := by
      intro other hother
      rw [hengines, hevidences]
      exact hfits other (List.mem_cons_of_mem _ hother)
    rw [Session.runJobs]
    generalize s.runJob job = run at hfirst hengines hrest ⊢
    obtain ⟨ended, after⟩ := run
    cases ended with
    | ok _ =>
      have hlater := ih hfirst (by rwa [hengines]) hrest
      exact ⟨hlater.1, hlater.2.trans hengines⟩
    | error halt =>
      have hlater := dropJobs rest hfirst hrest
      exact ⟨hlater.1, hlater.2.trans hengines⟩

/-- Jobs may be taken out of the queue. -/
theorem takeQueue (h : s.Traced log sets) :
    s.takeQueue.2.Traced log sets ∧
      ∀ job ∈ s.takeQueue.1, job.Fits s.engines (s.flows.map Flow.evidence) :=
  ⟨{ h with jobs := fun _ hjob => (nomatch hjob) }, h.jobs⟩

/-- Every deed leaves values where they come from. -/
theorem after (h : s.Traced log sets) (hnotes : ∀ e ∈ s.engines, e.engine.Notes log e.number)
    (deed : Deed) :
    (s.after deed).Traced log (sets ++ setsOf [deed]) ∧ (s.after deed).engines = s.engines := by
  cases deed with
  | make evidence =>
    refine ⟨(h.make evidence).more _, ?_⟩
    cases hclosed : s.pipeline.closed with
    | true => rw [Session.after, createWith_of_closed hclosed]
    | false => rw [Session.after, createWith_of_open hclosed]
  | process flow =>
    exact (h.more _).actOn flow fun start =>
      Pipeline.preserves_traced h.numbers h.elements hnotes
  | set flow object name value =>
    apply (h.more _).actOn flow
    intro start
    apply Scene.Traced.preserves_set
    simp [setsOf]
  | stop flow => exact (h.more _).actOn flow fun start => Scene.Traced.preserves_stop
  | runQueue =>
    obtain ⟨htaken, hfits⟩ := (h.more (setsOf [.runQueue])).takeQueue
    exact htaken.runJobs _ hnotes hfits
  | dropQueue =>
    obtain ⟨htaken, hfits⟩ := (h.more (setsOf [.dropQueue])).takeQueue
    exact htaken.dropJobs _ hfits

/-- Deeds leave values where they come from, one after the other. -/
theorem afterAll (deeds : List Deed) (h : s.Traced log sets)
    (hnotes : ∀ e ∈ s.engines, e.engine.Notes log e.number) :
    (s.afterAll deeds).Traced log (sets ++ setsOf deeds) ∧
      (s.afterAll deeds).engines = s.engines := by
  unfold Session.afterAll
  induction deeds generalizing s sets with
  | nil =>
    rw [setsOf, List.filterMap_nil, List.append_nil]
    exact ⟨h, rfl⟩
  | cons deed rest ih =>
    obtain ⟨hfirst, hengines⟩ := h.after hnotes deed
    obtain ⟨hrest, hlast⟩ := ih hfirst (by rwa [hengines])
    have hsets : setsOf (deed :: rest) = setsOf [deed] ++ setsOf rest := by
      rw [setsOf, setsOf, setsOf, ← List.filterMap_append]
      rfl
    rw [hsets, ← List.append_assoc]
    exact ⟨hrest, hlast.trans hengines⟩

end Session.Traced

/-! ## Isolation -/

/-- A value was written by a call of an engine itself whose result serves for the evidence. -/
def Write.IsOwn (w : Write) (engines : List (EngineElement υ)) (notes : List Note)
    (evidence : Evidence) : Prop :=
  ∃ e ∈ engines, e.cached ∧ ∃ note ∈ notes, note.IsFor e evidence ∧ note.own? w.name = some w.value

/-- The result that an element finds for a fingerprint changes no property in any flow but those that
the call has written itself. -/
def Note.Isolates (note : Note) (e : EngineElement υ) (key : Option Fingerprint)
    (shared : Shared υ) : Prop :=
  ∀ flow : Flow, e.keyOf flow = key → ∀ object name, note.own? name = none →
    ((e.process.runOn { flow, shared }).2.flow.held object).lookup name =
      (flow.held object).lookup name

namespace EngineElement

variable {e : EngineElement υ} {flow : Flow} {shared : Shared υ} {result : Aspect}

/-- A property that a result does not hold is left alone when the result is found. -/
theorem lookup_held_of_found (hfound : (e.lookIn (e.keyOf flow) shared).1 = .value result)
    (htidy : result.properties.keys.Nodup) {name : String}
    (hname : result.properties.lookup name = none) (object : ObjectId) :
    ((e.process.runOn { flow, shared }).2.flow.held object).lookup name =
      (flow.held object).lookup name := by
  rw [runOn_process_of_found hfound, ← flow.held_objectAt e.engine.key]
  rcases flow.objectAt e.engine.key with ⟨fault | id, after⟩
  · rfl
  · change ((after.modifyObject id (·.merge result)).held object).lookup name =
      (after.held object).lookup name
    cases hobject : after.object? id with
    | none => rw [Flow.modifyObject_of_none hobject]
    | some a =>
      rw [Flow.held_merge hobject]
      split
      · rw [Table.lookup_putAll, Table.lookup_reverse htidy, hname, Option.none_or]
      · rfl

/-- A flow without data comes to hold all of a result that is found. -/
theorem lookup_held_of_found_new (hfound : (e.lookIn (e.keyOf flow) shared).1 = .value result)
    (htidy : result.properties.keys.Nodup) (hnone : flow.datum? e.engine.key = none)
    (name : String) :
    ((e.process.runOn { flow, shared }).2.flow.held flow.objects.length).lookup name =
      result.properties.lookup name := by
  rw [runOn_process_of_hit hnone hfound]
  simp only
  rw [Flow.held_of_object? (Flow.object?_fill flow _ _), Aspect.properties_merge,
    Table.lookup_putAll, Table.lookup_reverse htidy]
  exact Option.or_none

/-- A result that is found changes no property but those that its call has written itself if and only
if the call was alone with its result object. -/
theorem isolates_iff_alone (hfound : (e.lookIn (e.keyOf flow) shared).1 = .value result)
    (htidy : result.properties.keys.Nodup) {note : Note}
    (hleft : ∀ name, result.properties.lookup name = note.left? name) :
    note.Isolates e (e.keyOf flow) shared ↔ note.Alone := by
  constructor
  · intro hisolates name hheld
    by_contra hmissing
    have hown : note.own? name = none := by simpa using hmissing
    -- In a flow without data all that the object holds comes from the result.
    have hsame := hisolates { evidence := flow.evidence } rfl 0 name hown
    replace hfound : (e.lookIn (e.keyOf { evidence := flow.evidence }) shared).1 = .value result :=
      hfound
    have hnew := lookup_held_of_found_new hfound htidy rfl name
    rw [hleft, Note.left?, hown, Option.none_or] at hnew
    rw [← hnew] at hheld
    replace hheld := (congrArg Option.isSome hsame).symm.trans hheld
    cases hheld
  · intro halone other hkey object name hown
    rw [← hkey] at hfound
    apply lookup_held_of_found hfound htidy
    rw [hleft, halone.left?_eq, hown]

end EngineElement

/-- Each value in a flow of the session was written during the flow, or by a call itself whose result
serves for the evidence of the flow. -/
def Session.Isolated (s : Session υ) (log : υ → List Note) (sets : List (Nat × Write)) : Prop :=
  ∀ (number : Nat) (flow : Flow), s.flows[number]? = some flow →
    ∀ w : Write, (flow.held w.object).lookup w.name = some w.value →
      w.IsIn (log s.shared.user) sets number ∨ w.IsOwn s.engines (log s.shared.user) flow.evidence

/-- Whatever is done with a session of engines: a result that is found for a flow was left by a call
on evidence of the same fingerprint, and it changes no property in any flow but those that the call has
written itself if and only if the call was alone with its result object. If all calls of engines with
stores were, then flows are isolated. -/
theorem Session.isolated_iff_alone {s : Session υ} {log : υ → List Note} (hbegins : s.Begins)
    (hnotes : ∀ e ∈ s.engines, e.engine.Notes log e.number) (deeds : List Deed) :
    (∀ e ∈ s.engines, ∀ (flow : Flow) (result : Aspect),
      (e.lookIn (e.keyOf flow) (s.afterAll deeds).shared).1 = .value result →
        ∃ note ∈ log (s.afterAll deeds).shared.user, note.IsFor e flow.evidence ∧
          (note.Isolates e (e.keyOf flow) (s.afterAll deeds).shared ↔ note.Alone)) ∧
    ((∀ e ∈ s.engines, e.cached → ∀ note ∈ log (s.afterAll deeds).shared.user,
        note.element = e.number → note.succeeded → note.Alone) →
      (s.afterAll deeds).Isolated log (setsOf deeds)) := by
  obtain ⟨htraced, hengines⟩ := (hbegins.traced log).afterAll deeds hnotes
  rw [List.nil_append] at htraced
  constructor
  · intro e he flow result hfound
    rw [← hengines] at he
    obtain ⟨hgood, -⟩ := (htraced.stores e he).lookIn (e.keyOf flow)
    obtain ⟨key, hkey⟩ := EngineElement.exists_key_of_found hfound
    obtain ⟨htidy, note, hnote, helement, hok, hfor, hleft⟩ := hgood result hfound key hkey
    refine ⟨note, hnote, ⟨helement, hok, ?_⟩, EngineElement.isolates_iff_alone hfound htidy hleft⟩
    exact hfor.trans (EngineElement.keyOf_eq_some hkey).2
  · intro halone number flow hflow w hw
    apply (htraced.origin number flow hflow w hw).imp_right
    rintro ⟨e, he, hcached, note, hnote, hfor, hleft⟩
    rw [(halone e (hengines ▸ he) hcached note hnote hfor.1 hfor.2.1).left?_eq] at hleft
    exact ⟨e, he, hcached, note, hnote, hfor, hleft⟩

/-- A session of two engines that share their data begins as the theorem asks, and its engines note their
calls. -/
theorem Session.isolated_iff_alone_of_copyPlans :
    ∃ s : Session (List Note),
      s.Begins ∧ (∀ e ∈ s.engines, e.engine.Notes id e.number) ∧
      ∀ deeds,
        (∀ e ∈ s.engines, ∀ (flow : Flow) (result : Aspect),
          (e.lookIn (e.keyOf flow) (s.afterAll deeds).shared).1 = .value result →
            ∃ note ∈ (s.afterAll deeds).shared.user, note.IsFor e flow.evidence ∧
              (note.Isolates e (e.keyOf flow) (s.afterAll deeds).shared ↔ note.Alone)) ∧
        ((∀ e ∈ s.engines, e.cached → ∀ note ∈ (s.afterAll deeds).shared.user,
            note.element = e.number → note.succeeded → note.Alone) →
          (s.afterAll deeds).Isolated id (setsOf deeds)) := by
  obtain ⟨filter, cache, hbuild, -, -⟩ := buildAll_copyPlans
  have hpipeline : Pipeline.build {} ([firstCopy, secondCopy].map fun e => .single e.toElement) =
      .ok (copySession [] [] { filter, store := .lru cache }).pipeline := rfl
  have hstages : ∀ x ∈ elementsOf ([firstCopy, secondCopy].map fun e => .single e.toElement),
      ∃ e ∈ [firstCopy, secondCopy], x = e.toElement := by
    intro x hx
    obtain rfl | rfl : x = firstCopy.toElement ∨ x = secondCopy.toElement := by
      simpa [elementsOf, Stage.elements] using hx
    · exact ⟨firstCopy, by simp, rfl⟩
    · exact ⟨secondCopy, by simp, rfl⟩
  have hbegins : (copySession [] [] { filter, store := .lru cache }).Begins :=
    Session.begins_of_build hbuild hstages hpipeline
  have hnotes : ∀ e ∈ [firstCopy, secondCopy], e.engine.Notes id e.number := by
    intro e he
    obtain rfl | rfl : e = firstCopy ∨ e = secondCopy := by simpa using he
    · exact copyEngine_notes 0 (by decide)
    · exact copyEngine_notes 1 (by decide)
  exact ⟨_, hbegins, hnotes, fun deeds => isolated_iff_alone hbegins hnotes deeds⟩

/-- What the first of two engines that share their data has written in one flow shows up in another with
other evidence for it. -/
theorem Session.not_isolated_of_twoFlows {cache : Lru Fingerprint Aspect} (hsound : cache.Sound)
    (hempty : ∀ key, cache.peek? key = none) (filter : Filter) {x x' : Json} (hother : x ≠ x')
    (y : Json) :
    ¬ ((copySession [] [] { filter, store := .lru cache }).afterAll (twoFlows x x' y)).Isolated id
      (setsOf (twoFlows x x' y)) := by
  obtain ⟨kept, hafter⟩ := afterAll_twoFlows hsound hempty filter x x' y
  rw [hafter]
  have hcalls : ∀ note ∈ [firstNote 0 x y, secondNote 0 x y, firstNote 1 x' y],
      note = firstNote 0 x y ∨ note = secondNote 0 x y ∨ note = firstNote 1 x' y := by simp
  intro hisolated
  rcases hisolated 1 _ rfl { object := 0, name := "x", value := x } rfl with
    (⟨note, hnote, hflow, hwritten⟩ | hset) | ⟨e, he, hcached, note, hnote, hfor, hown⟩
  · rcases hcalls note hnote with rfl | rfl | rfl
    · cases hflow
    · cases hflow
    · obtain ⟨⟩ := List.mem_singleton.mp hwritten
      exact hother rfl
  · cases hset
  · obtain rfl | rfl : e = firstCopy ∨ e = secondCopy := by simpa [copySession] using he
    · cases hcached
    · rcases hcalls note hnote with rfl | rfl | rfl
      · cases hfor.1
      · have hnone : (secondNote 0 x y).own? "x" = none := rfl
        cases hnone.symm.trans hown
      · cases hfor.1

/-- Flows of two engines that share their data are not isolated. -/
theorem Session.not_isolated_of_copyPlans :
    ∃ engines shared pipeline,
      EngineElement.buildAll {} (fun _ => .bySize) 0 copyPlans { user := [] } = .ok (engines, shared) ∧
      Pipeline.build {} (engines.map fun e => .single e.toElement) = .ok pipeline ∧
      ¬ (({ pipeline, engines, shared } : Session (List Note)).afterAll
          (twoFlows (.int 1) (.int 2) (.int 1))).Isolated id
        (setsOf (twoFlows (.int 1) (.int 2) (.int 1))) := by
  obtain ⟨filter, cache, hbuild, hsound, hempty⟩ := buildAll_copyPlans
  refine ⟨_, _, (copySession [] [] { filter, store := .lru cache }).pipeline, hbuild, rfl, ?_⟩
  exact not_isolated_of_twoFlows hsound hempty filter (by simp) _

end EvidenceFlow
