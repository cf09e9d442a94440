import EvidenceFlow.Proofs.Engine.CachedProcess
import EvidenceFlow.Proofs.Engine.Notes
import EvidenceFlow.Proofs.Pipeline.Stages

/-!
# Where values come from

A value in a result object was written during the flow, or it was left by a call whose result was kept
under a fingerprint that the flow has as well. What such a call left is what it wrote and what it found:
both come along with the result.
-/

namespace EvidenceFlow

variable {υ α : Type}

/-! ## Origins -/

/-- A note is of a successful call of the engine of an element on evidence of the same fingerprint. -/
def Note.IsFor (note : Note) (e : EngineElement υ) (evidence : Evidence) : Prop :=
  note.element = e.number ∧ note.succeeded ∧ note.key = .ofEvidence e.engine.filter evidence

/-- A value was written during a flow: by an engine, or by other code. -/
def Write.IsIn (w : Write) (notes : List Note) (sets : List (Nat × Write)) (flow : Nat) : Prop :=
  (∃ note ∈ notes, note.flow = flow ∧ w ∈ note.writes) ∨ (flow, w) ∈ sets

/-- A value was left by a call whose result serves for the evidence. -/
def Write.IsLeft (w : Write) (engines : List (EngineElement υ)) (notes : List Note)
    (evidence : Evidence) : Prop :=
  ∃ e ∈ engines, e.cached ∧ ∃ note ∈ notes, note.IsFor e evidence ∧ note.left? w.name = some w.value

/-- A result that is kept is what a successful call left. -/
def Note.Leaves (notes : List Note) (number : Nat) (key : Fingerprint) (a : Aspect) : Prop :=
  a.properties.keys.Nodup ∧ ∃ note ∈ notes, note.element = number ∧ note.succeeded ∧ note.key = key ∧
    ∀ name, a.properties.lookup name = note.left? name

/-- A fingerprint is that of a flow's evidence, as an element sees it. -/
def EngineElement.Sees (e : EngineElement υ) (key : Option Fingerprint) (evidences : List Evidence)
    (flow : Nat) : Prop :=
  ∀ k, key = some k → ∀ evidence, evidences[flow]? = some evidence →
    k = .ofEvidence e.engine.filter evidence

/-- A job is for a flow that is there, and keeps its result under the fingerprint of its flow. -/
def Job.Fits (job : Job) (engines : List (EngineElement υ)) (evidences : List Evidence) : Prop :=
  job.flow < evidences.length ∧
    ∀ e ∈ engines, e.number = job.element → e.Sees job.key evidences job.flow

/-- The values of a scene come from where they may: those in result objects of the flow and those of
results that are kept. -/
structure Scene.Traced (engines : List (EngineElement υ)) (log : υ → List Note)
    (sets : List (Nat × Write)) (evidences : List Evidence) (start : List Note) (flow : Nat)
    (scene : Scene υ) : Prop where
  /-- The flow has its number. -/
  id : scene.flow.id = flow
  /-- The flow has its evidence. -/
  evidence : evidences[flow]? = some scene.flow.evidence
  /-- Calls have been noted and are not forgotten. -/
  grown : start <+: log scene.shared.user
  /-- Result objects hold each property once. -/
  tidy : ∀ object, (scene.flow.held object).keys.Nodup
  /-- Values in result objects were written during the flow or left by a call. -/
  origin : ∀ w : Write, (scene.flow.held w.object).lookup w.name = some w.value →
    w.IsIn (log scene.shared.user) sets flow ∨
      w.IsLeft engines (log scene.shared.user) scene.flow.evidence
  /-- Results that are kept were left by calls. -/
  stores : ∀ e ∈ engines, e.Stores (Note.Leaves (log scene.shared.user) e.number) scene.shared
  /-- Jobs keep their results where they should. -/
  jobs : ∀ job ∈ scene.shared.queue, job.Fits engines evidences

/-- The result object of an engine is as a successful call left it. -/
def Scene.Called (log : υ → List Note) (e : EngineElement υ) (object : ObjectId)
    (scene : Scene υ) : Prop :=
  ∃ note ∈ log scene.shared.user, note.IsFor e scene.flow.evidence ∧
    ∀ name, (scene.flow.held object).lookup name = note.left? name

variable {engines : List (EngineElement υ)} {log : υ → List Note} {sets : List (Nat × Write)}
  {evidences : List Evidence} {start : List Note} {flow : Nat}

/-! ## More calls -/

/-- What was written during the flow still was after more calls. -/
theorem Write.IsIn.mono {w : Write} {notes later : List Note} (h : w.IsIn notes sets flow)
    (hle : notes <+: later) : w.IsIn later sets flow := by
  rcases h with ⟨note, hnote, hwritten⟩ | hset
  · exact Or.inl ⟨note, hle.mem hnote, hwritten⟩
  · exact Or.inr hset

/-- What was left by a call still is after more calls. -/
theorem Write.IsLeft.mono {w : Write} {notes later : List Note} {evidence : Evidence}
    (h : w.IsLeft engines notes evidence) (hle : notes <+: later) :
    w.IsLeft engines later evidence := by
  obtain ⟨e, he, hcached, note, hnote, hleft⟩ := h
  exact ⟨e, he, hcached, note, hle.mem hnote, hleft⟩

/-- What some call left still is what one left after more calls. -/
theorem Note.Leaves.mono {notes later : List Note} {number : Nat} {key : Fingerprint} {a : Aspect}
    (h : Note.Leaves notes number key a) (hle : notes <+: later) :
    Note.Leaves later number key a := by
  obtain ⟨htidy, note, hnote, hleft⟩ := h
  exact ⟨htidy, note, hle.mem hnote, hleft⟩

/-- A store of values that are good keeps values that are better if all good ones are. -/
theorem KeyedStore.Keeps.mono {ν : Type} {c : KeyedStore ν} {good better : Fingerprint → ν → Prop}
    (h : c.Keeps good) (hle : ∀ key v, good key v → better key v) : c.Keeps better :=
  fun cache hcache => ⟨(h cache hcache).sound, fun key v hv => hle key v ((h cache hcache).good key v hv)⟩

/-! ## What leaves values alone -/

namespace Scene.Traced

/-- What touches neither values nor stores nor jobs leaves all values where they come from. -/
theorem congr {scene after : Scene υ} (h : scene.Traced engines log sets evidences start flow)
    (hid : after.flow.id = scene.flow.id) (hevidence : after.flow.evidence = scene.flow.evidence)
    (hheld : ∀ object, after.flow.held object = scene.flow.held object)
    (hresults : after.shared.results = scene.shared.results)
    (hqueue : after.shared.queue = scene.shared.queue)
    (huser : after.shared.user = scene.shared.user) :
    after.Traced engines log sets evidences start flow where
  id := hid.trans h.id
  evidence := by rw [hevidence]; exact h.evidence
  grown := by rw [huser]; exact h.grown
  tidy object := by rw [hheld]; exact h.tidy object
  origin w hw := by
    rw [hheld] at hw
    rw [huser, hevidence]
    exact h.origin w hw
  stores e he store hstore := by
    rw [hresults] at hstore
    rw [huser]
    exact h.stores e he store hstore
  jobs job hjob := by
    rw [hqueue] at hjob
    exact h.jobs job hjob

/-- Other things that are kept between flows do not matter. -/
theorem preserves_onShared {f : Shared υ → α × Shared υ}
    (hresults : ∀ shared, (f shared).2.results = shared.results)
    (hqueue : ∀ shared, (f shared).2.queue = shared.queue)
    (huser : ∀ shared, (f shared).2.user = shared.user) :
    (Act.onShared f).Preserves (Traced engines log sets evidences start flow) := by
  intro scene h
  rw [Act.runOn_onShared]
  exact h.congr rfl rfl (fun _ => rfl) (hresults _) (hqueue _) (huser _)

/-- Cancelling a task leaves all values where they come from. -/
theorem preserves_cancel (task : TaskId) :
    (Act.cancel task : Act υ Unit).Preserves (Traced engines log sets evidences start flow) :=
  preserves_onShared (fun _ => rfl) (fun _ => rfl) (fun _ => rfl)

/-- Completing a task leaves all values where they come from. -/
theorem preserves_complete (task : TaskId) (result : Except Fault Unit) :
    (Act.complete task result : Act υ Bool).Preserves
      (Traced engines log sets evidences start flow) :=
  preserves_onShared (fun _ => rfl) (fun _ => rfl) (fun _ => rfl)

/-- A result object that is changed elsewhere than in its values does not matter. -/
theorem preserves_modifyObject {f : Aspect → Aspect} (hf : ∀ a, (f a).properties = a.properties)
    (object : ObjectId) :
    (Act.modifyObject object f : Act υ Unit).Preserves
      (Traced engines log sets evidences start flow) := by
  intro scene h
  rw [Act.modifyObject, Act.runOn_onFlow]
  exact h.congr rfl rfl (fun other => Flow.held_modifyObject_of_same hf _ _ other) rfl rfl rfl

/-- A property that other code sets during the flow comes from there. -/
theorem preserves_set {object : ObjectId} {name : String} {value : Json}
    (hset : (flow, { object, name := Text.lowercase name, value }) ∈ sets) :
    (Act.modifyObject object (·.set name value) : Act υ Unit).Preserves
      (Traced engines log sets evidences start flow) := by
  intro scene h
  rw [Act.modifyObject, Act.runOn_onFlow]
  cases hobject : scene.flow.object? object with
  | none =>
    rw [Flow.modifyObject_of_none hobject]
    exact h
  | some a =>
    refine
      { h with
        tidy := ?_
        origin := ?_ }
    · intro other
      rw [Flow.held_set hobject]
      split
      · exact Table.nodup_keys_put (h.tidy other) _ _
      · exact h.tidy other
    · intro w hw
      rw [Flow.held_set hobject] at hw
      split at hw
      · next hsame =>
        rw [Table.lookup_put] at hw
        split at hw
        · next hname =>
          left
          right
          obtain rfl : w = { object, name := Text.lowercase name, value } := by
            obtain ⟨_, _, _⟩ := w
            simp_all
          exact hset
        · exact h.origin w hw
      · exact h.origin w hw

/-- A stop of the flow does not matter. -/
theorem preserves_stop :
    (Act.stop : Act υ Unit).Preserves (Traced engines log sets evidences start flow) := by
  intro scene h
  rw [Act.stop, Act.runOn_onTasks]
  exact h.congr rfl rfl (fun _ => rfl) rfl rfl rfl

/-- Tasks that wait for the flow to be stopped do not matter. -/
theorem preserves_onStop (task : TaskId) :
    (Act.onStop task : Act υ Unit).Preserves (Traced engines log sets evidences start flow) := by
  intro scene h
  rw [Act.onStop, Act.runOn_onTasks]
  refine h.congr ?_ ?_ ?_ rfl rfl rfl
  all_goals
    unfold Flow.onStop
    split
  all_goals first | rfl | exact fun _ => rfl

/-- A new result object does not matter. -/
theorem preserves_objectAt (key : String) :
    (Act.objectAt key : Act υ ObjectId).Preserves
      (Traced engines log sets evidences start flow) := by
  rw [Act.objectAt]
  refine .bind ?_ fun result => .ofExcept result
  intro scene h
  obtain ⟨hid, hevidence⟩ := scene.flow.frame_objectAt key
  exact h.congr hid hevidence (scene.flow.held_objectAt key) rfl rfl rfl

/-! ## Stores -/

/-- A scene may be looked at as one that starts later. -/
theorem restart {scene : Scene υ} (h : scene.Traced engines log sets evidences start flow) :
    scene.Traced engines log sets evidences (log scene.shared.user) flow :=
  { h with grown := List.prefix_refl _ }

/-- A scene that starts later may be looked at as one that started earlier. -/
theorem of_later {scene : Scene υ} {later : List Note}
    (h : scene.Traced engines log sets evidences later flow) (hle : start <+: later) :
    scene.Traced engines log sets evidences start flow :=
  { h with grown := hle.trans h.grown }

/-- Of what is kept between flows only the stores may change. -/
theorem of_stores {scene : Scene υ} (h : scene.Traced engines log sets evidences start flow)
    {shared : Shared υ} (huser : shared.user = scene.shared.user)
    (hqueue : shared.queue = scene.shared.queue)
    (hstores : ∀ e ∈ engines, e.Stores (Note.Leaves (log scene.shared.user) e.number) shared) :
    ({ scene with shared } : Scene υ).Traced engines log sets evidences start flow where
  id := h.id
  evidence := h.evidence
  grown := by rw [huser]; exact h.grown
  tidy := h.tidy
  origin := by rw [huser]; exact h.origin
  stores := by rw [huser]; exact hstores
  jobs := by rw [hqueue]; exact h.jobs

/-- A look-up leaves values where they come from. -/
theorem lookIn {scene : Scene υ} (h : scene.Traced engines log sets evidences start flow)
    (e : EngineElement υ) (key : Option Fingerprint) :
    ({ scene with shared := (e.lookIn key scene.shared).2 } : Scene υ).Traced engines log sets
      evidences start flow := by
  refine h.of_stores (e.user_lookIn key _) ?_ ?_
  · unfold EngineElement.lookIn
    split <;> rfl
  · intro other hother
    by_cases hsame : other.number = e.number
    · have hstores := (h.stores other hother).of_number hsame.symm
      exact (hstores.lookIn key).2.of_number hsame
    · exact (h.stores other hother).congr (e.results_lookIn_of_ne key _ hsame)

/-- What a successful call left is kept where it comes from. -/
theorem keep {scene : Scene υ} (h : scene.Traced engines log sets evidences start flow)
    {e : EngineElement υ} {object : ObjectId} {key : Option Fingerprint}
    (hcalled : scene.Called log e object) (hkey : e.Sees key evidences flow) :
    ((e.keep key object).runOn scene).2.Traced engines log sets evidences start flow := by
  cases hobject : scene.flow.object? object with
  | none =>
    have hnothing : ((e.keep key object).runOn scene).2 = scene := by
      rw [EngineElement.keep, Act.runOn_modify, hobject]
      split <;> simp_all
    rwa [hnothing]
  | some a =>
    rw [e.runOn_keep key hobject]
    cases key with
    | none => exact h
    | some key =>
      refine h.of_stores (e.user_keepIn _ a _) ?_ ?_
      · unfold EngineElement.keepIn
        split <;> rfl
      · have hheld := Flow.held_of_object? hobject
        obtain ⟨note, hnote, ⟨helement, hok, hfor⟩, hleft⟩ := hcalled
        have hleaves : Note.Leaves (log scene.shared.user) e.number key a.snapshot := by
          refine ⟨?_, note, hnote, helement, hok, hfor.trans (hkey key rfl _ h.evidence).symm, ?_⟩
          · have htidy := h.tidy object
            rwa [hheld] at htidy
          · intro name
            rw [← hleft, hheld]
            rfl
        intro other hother
        by_cases hsame : other.number = e.number
        · have hstores := (h.stores other hother).of_number hsame.symm
          rw [hsame] at hstores ⊢
          exact (hstores.keepIn hleaves).of_number hsame
        · exact (h.stores other hother).congr (e.results_keepIn_of_ne _ a _ hsame)

/-! ## Calls -/

/-- A call that is noted leaves values where they come from, and its result may be kept if it
succeeded. -/
theorem call {scene : Scene υ} (h : scene.Traced engines log sets evidences start flow)
    {e : EngineElement υ} (hnotes : e.engine.Notes log e.number) (object : ObjectId) :
    ((e.engine.run object).runOn scene).2.Traced engines log sets evidences start flow ∧
      ((e.engine.run object).runOn scene).2.flow.evidence = scene.flow.evidence ∧
      (((e.engine.run object).runOn scene).1.toBool →
        ((e.engine.run object).runOn scene).2.Called log e object) := by
  obtain ⟨note, helement, htells⟩ := hnotes object scene
  generalize (e.engine.run object).runOn scene = called at htells ⊢
  obtain ⟨ended, after⟩ := called
  have hgrown : log scene.shared.user <+: log after.shared.user := by
    rw [htells.logged]
    exact List.prefix_append _ _
  have hnote : note ∈ log after.shared.user := by
    rw [htells.logged]
    simp
  refine ⟨?_, htells.evidence, ?_⟩
  · refine
      { id := htells.id.trans h.id
        evidence := ?_
        grown := h.grown.trans hgrown
        tidy := ?_
        origin := ?_
        stores := ?_
        jobs := ?_ }
    · rw [htells.evidence]
      exact h.evidence
    · intro other
      rw [htells.held]
      exact Table.nodup_keys_putAll (h.tidy other) _
    · intro w hw
      rw [htells.held, Table.lookup_putAll, Option.or_eq_some_iff] at hw
      rcases hw with hwritten | ⟨-, hbefore⟩
      · left
        left
        exact ⟨note, hnote, htells.flow.trans h.id, note.mem_writes_of_lookup hwritten⟩
      · rw [htells.evidence]
        exact (h.origin w hbefore).imp (fun hin => hin.mono hgrown) fun hleft => hleft.mono hgrown
    · intro other hother store hstore
      rw [htells.results] at hstore
      exact (h.stores other hother store hstore).mono fun key a ha => ha.mono hgrown
    · rw [htells.queue]
      exact h.jobs
  · intro hok
    refine ⟨note, hnote, ⟨helement, htells.succeeded.trans hok, ?_⟩, htells.lookup_held⟩
    rw [htells.evidence]
    exact htells.key

/-! ## Jobs -/

/-- A task is settled that its job has not settled. -/
theorem preserves_abandon (job : Job) (engine reason : String) :
    (EngineElement.abandon job engine reason : Act υ Unit).Preserves
      (Traced engines log sets evidences start flow) := by
  unfold EngineElement.abandon
  refine .bind .get fun scene => ?_
  split
  · exact .pure _
  · split
    · exact preserves_cancel _
    · exact .discard (preserves_complete _ _)

/-- A job that failed keeps nothing. -/
theorem preserves_finish_error (e : EngineElement υ) (job : Job) (fault : Fault) :
    (e.finish job (.error fault)).Preserves (Traced engines log sets evidences start flow) := by
  unfold EngineElement.finish
  refine .bind .get fun scene => ?_
  split
  · next hok =>
    simp [Except.toBool] at hok
  · exact .discard (preserves_complete _ _)

/-- A job that succeeded keeps its result, unless its task was cancelled. -/
theorem finish {scene : Scene υ} (h : scene.Traced engines log sets evidences start flow)
    {e : EngineElement υ} {job : Job} (hcalled : scene.Called log e job.object)
    (hkey : e.Sees job.key evidences flow) :
    ((e.finish job (.ok ())).runOn scene).2.Traced engines log sets evidences start flow := by
  unfold EngineElement.finish
  rw [Act.runOn_bind, Act.runOn_get]
  simp only
  split
  · have hkept := h.keep hcalled hkey
    apply Act.Preserves.holds_bind
    · intro halt after hrun
      rwa [hrun] at hkept
    · intro _ after hrun
      rw [hrun] at hkept
      exact Act.Preserves.discard (preserves_complete _ _) after hkept
  · exact Act.Preserves.discard (preserves_complete _ _) scene h

variable {e : EngineElement υ}

/-- A job leaves values where they come from, however it ends. -/
theorem preserves_runJob (hnotes : e.engine.Notes log e.number) {job : Job}
    (hkey : e.Sees job.key evidences flow) :
    (e.runJob job).Preserves (Traced engines log sets evidences start flow) := by
  intro scene h
  unfold EngineElement.runJob
  rw [Act.runOn_bind, Act.runOn_get]
  simp only
  split
  · exact preserves_cancel _ scene h
  · obtain ⟨hcall, -, hcalled⟩ := h.call hnotes job.object
    rw [Act.runOn_bind, Act.runOn_modifyGet]
    simp only
    generalize (e.engine.run job.object).runOn scene = called at hcall hcalled ⊢
    obtain ⟨ended, after⟩ := called
    rcases ended with (fault | message) | _
    · exact preserves_finish_error e job fault after hcall
    · exact Act.Preserves.bind (preserves_abandon _ _ _) (fun _ => .throw _) after hcall
    · exact hcall.finish (hcalled rfl) hkey

/-- A job that is refused is dropped. -/
theorem preserves_refuse (e : EngineElement υ) (job : Job) (fault : Fault) :
    (e.refuse job fault).Preserves (Traced engines log sets evidences start flow) := by
  unfold EngineElement.refuse
  exact .bind (preserves_abandon _ _ _) fun _ => .fail _

/-- A job that is handed over leaves values where they come from. -/
theorem preserves_hand (he : e ∈ engines) (hnotes : e.engine.Notes log e.number) {job : Job}
    (helement : job.element = e.number) (hflow : job.flow = flow) (hfits : job.Fits engines evidences)
    (executor : Executor) :
    (e.hand job executor).Preserves (Traced engines log sets evidences start flow) := by
  have hkey : e.Sees job.key evidences flow := by
    rw [← hflow]
    exact hfits.2 e he helement.symm
  have hrun : (e.runJob job).Preserves (Traced engines log sets evidences start flow) :=
    preserves_runJob hnotes hkey
  have hapart : (e.runApart job).Preserves (Traced engines log sets evidences start flow) := by
    unfold EngineElement.runApart
    exact .discard (.modifyGet_runOn hrun)
  unfold EngineElement.hand
  cases executor with
  | default => exact hapart
  | pool name =>
    refine .bind .get fun scene => ?_
    split
    · exact preserves_refuse e job _
    · exact hapart
  | threads =>
    refine .bind .get fun scene => ?_
    split
    · exact preserves_refuse e job _
    · exact .bind (preserves_onShared (fun _ => rfl) (fun _ => rfl) fun _ => rfl) fun _ => hapart
  | manual =>
    intro scene h
    rw [Act.runOn_onShared]
    exact
      { h with
        jobs := by
          intro other hother
          rcases List.mem_append.mp hother with hqueued | hnew
          · exact h.jobs other hqueued
          · rw [List.mem_singleton.mp hnew]
            exact hfits }
  | inline => exact hrun
  | rejecting fault => exact preserves_refuse e job fault

/-! ## Processing -/

/-- An engine that is run apart from the flow leaves values where they come from. -/
theorem preserves_runLazily (hnumbers : (engines.map EngineElement.number).Nodup) (he : e ∈ engines)
    (hnotes : e.engine.Notes log e.number) {key : Option Fingerprint}
    (hkey : e.Sees key evidences flow) (dispatch : Dispatch) (object : ObjectId) :
    (e.runLazily dispatch object key).Preserves
      (Traced engines log sets evidences start flow) := by
  unfold EngineElement.runLazily
  refine .bind (preserves_onShared (fun _ => rfl) (fun _ => rfl) fun _ => rfl) fun task => ?_
  have hregister : ∀ a : Aspect, (a.register task dispatch.timeout).properties = a.properties :=
    fun _ => rfl
  refine .bind (preserves_modifyObject hregister object) fun _ =>
    .bind (preserves_onStop _) fun _ => ?_
  intro scene h
  rw [Act.runOn_bind, Act.runOn_get]
  simp only
  have hfits : Job.Fits { task, flow := scene.flow.id, object, key, element := e.number } engines
      evidences := by
    constructor
    · rw [h.id]
      exact (List.getElem?_eq_some_iff.mp h.evidence).1
    · intro other hother hsame
      rw [List.inj_on_of_nodup_map hnumbers hother he hsame, h.id]
      exact hkey
  refine Act.Preserves.bind (.modifyGet_runOn (preserves_hand he hnotes rfl h.id hfits _))
    (fun ended => ?_) scene h
  rcases ended with (fault | message) | _
  · exact .bind (.discard (preserves_complete _ _)) fun _ => .fail _
  · exact .throw _
  · exact .pure _

/-- An engine that computes its result leaves values where they come from. -/
theorem preserves_compute (hnumbers : (engines.map EngineElement.number).Nodup) (he : e ∈ engines)
    (hnotes : e.engine.Notes log e.number) {key : Option Fingerprint}
    (hkey : e.Sees key evidences flow) :
    (e.compute key).Preserves (Traced engines log sets evidences start flow) := by
  have hopen : ∀ a : Aspect,
      ((a.addEngine e.engine.name).addProperties e.engine.properties).properties = a.properties := by
    intro a
    rw [Aspect.properties_addProperties, Aspect.properties_addEngine]
  unfold EngineElement.compute
  refine .bind (preserves_objectAt _) fun object =>
    .bind (preserves_modifyObject hopen object) fun _ => ?_
  cases e.dispatch with
  | some dispatch => exact preserves_runLazily hnumbers he hnotes hkey dispatch object
  | none =>
    intro scene h
    obtain ⟨hcall, -, hcalled⟩ := h.call hnotes object
    apply Act.Preserves.holds_bind
    · intro halt after hrun
      rwa [hrun] at hcall
    · intro _ after hrun
      rw [hrun] at hcall hcalled
      exact hcall.keep (hcalled rfl) hkey

/-- A result that is found leaves values where they come from. -/
theorem preserves_install {key : Fingerprint} {result : Aspect} (he : e ∈ engines)
    (hcached : e.cached) (hkey : e.Sees (some key) evidences flow)
    (hresult : Note.Leaves start e.number key result) :
    (e.install result).Preserves (Traced engines log sets evidences start flow) := by
  unfold EngineElement.install
  refine .bind (preserves_objectAt _) fun object => ?_
  intro scene h
  obtain ⟨htidy, note, hnote, helement, hok, hfor, hleft⟩ := hresult
  rw [Act.modifyObject, Act.runOn_onFlow]
  refine
    { h with
      tidy := ?_
      origin := ?_ }
  · intro other
    cases hobject : scene.flow.object? object with
    | none =>
      rw [Flow.modifyObject_of_none hobject]
      exact h.tidy other
    | some a =>
      rw [Flow.held_merge hobject]
      split
      · exact Table.nodup_keys_putAll (h.tidy other) _
      · exact h.tidy other
  · intro w hw
    rcases Flow.lookup_held_merge hw with hheld | hmerged
    · exact h.origin w hheld
    · right
      refine ⟨e, he, hcached, note, h.grown.mem hnote, ⟨helement, hok, ?_⟩, ?_⟩
      · rw [hfor]
        exact hkey key rfl _ h.evidence
      · rw [← hleft]
        exact (Table.lookup_eq_some_iff htidy).mpr hmerged

end Scene.Traced

/-- An element leaves values where they come from. -/
theorem EngineElement.preserves_process {e : EngineElement υ}
    (hnumbers : (engines.map EngineElement.number).Nodup) (he : e ∈ engines)
    (hnotes : e.engine.Notes log e.number) :
    e.process.Preserves (Scene.Traced engines log sets evidences start flow) := by
  intro scene h
  have hkey : e.Sees (e.keyOf scene.flow) evidences flow := by
    intro k hk evidence hevidence
    rw [h.evidence] at hevidence
    cases hevidence
    exact (keyOf_eq_some hk).2
  have hlooked := h.restart.lookIn e (e.keyOf scene.flow)
  suffices hlater : (e.process.runOn scene).2.Traced engines log sets evidences
      (log scene.shared.user) flow from hlater.of_later h.grown
  rw [process, Act.runOn_bind, Act.runOn_get]
  simp only
  rw [Act.runOn_bind, runOn_lookUp]
  simp only
  split
  · next result hfound =>
    obtain ⟨key, hk⟩ := exists_key_of_found hfound
    have hcached := (keyOf_eq_some hk).1
    have hleaves := ((h.stores e he).lookIn (e.keyOf scene.flow)).1 result hfound key hk
    rw [hk] at hkey
    exact Scene.Traced.preserves_install he hcached hkey hleaves _ hlooked
  · exact Scene.Traced.preserves_compute hnumbers he hnotes hkey _ hlooked

/-- A pipeline of engines leaves values where they come from. -/
theorem Pipeline.preserves_traced {p : Pipeline υ}
    (hnumbers : (engines.map EngineElement.number).Nodup)
    (helements : ∀ x ∈ p.elements, ∃ e ∈ engines, x = e.toElement)
    (hnotes : ∀ e ∈ engines, e.engine.Notes log e.number) :
    p.process.Preserves (Scene.Traced engines log sets evidences start flow) := by
  apply preserves_process
  · intro x hx
    obtain ⟨e, he, rfl⟩ := helements x hx
    exact e.preserves_process hnumbers he (hnotes e he)
  · intro scene h
    exact h.congr rfl rfl (fun _ => rfl) rfl rfl rfl
  · intro scene incident h
    exact h.congr rfl rfl (fun _ => rfl) rfl rfl rfl

end EvidenceFlow
