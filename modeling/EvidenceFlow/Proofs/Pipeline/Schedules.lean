import EvidenceFlow.Proofs.Pipeline.Contributions
import EvidenceFlow.Proofs.Pipeline.Passages

/-!
# The order of calls tells nothing

If the elements of a group keep to their keys, what the group ends with and leaves does not tell in which
order its elements were called: faults are recorded, and the one that ends the run is chosen, as the
elements are declared. A run goes on from there in the same way, as long as the elements behind the group
go by what can be read.
-/

namespace EvidenceFlow.Pipeline

variable {υ : Type}

/-! ## Conclusions and reports -/

/-- To record incidents is to go by what can be read. -/
theorem goesByReading_addIncidents (incidents : List Incident) :
    (Act.onFlow fun flow => ((), incidents.foldl Flow.addIncident flow) : Act υ Unit).GoesByReading := by
  simp only [Flow.addIncidents_eq]
  refine .modifyGet (fun scene => ⟨rfl, rfl⟩) fun s t hrest => ⟨rfl, ?_⟩
  exact congrArg (fun scene : Scene υ =>
    { scene with flow := { scene.flow with incidents := scene.flow.incidents ++ incidents } }) hrest

/-- To conclude a stage is to go by what can be read. -/
theorem goesByReading_conclude (ended : List (Except Halt Unit)) (faults : List Incident) :
    (conclude ended faults : Act υ Unit).GoesByReading := by
  unfold conclude
  cases ended.findSome? panicOf? with
  | some message => exact .throw _
  | none =>
    refine .bind (goesByReading_addIncidents _) fun _ => ?_
    split
    · exact .pure _
    · exact .fail _

/-- Runs that cannot be told apart are reported in the same way. -/
theorem reported_alike (settings : PipelineSettings) {ran ran' : Except Halt Unit × Scene υ}
    (hended : ran.1 = ran'.1) (halike : Scene.Alike ran.2 ran'.2) :
    (reported settings ran).1 = (reported settings ran').1 ∧
      Scene.Alike (reported settings ran).2 (reported settings ran').2 := by
  obtain ⟨ended, after⟩ := ran
  obtain ⟨ended', after'⟩ := ran'
  obtain rfl : ended = ended' := hended
  cases ended with
  | error halt => exact ⟨rfl, halike⟩
  | ok _ =>
    rw [reported, reported, runOn_report, runOn_report, halike.incidents_eq]
    exact ⟨rfl, halike⟩

/-- Whether the run goes on behind a stage can be read. -/
theorem final_congr {concluded concluded' : Except Halt Unit × Scene υ} (hended : concluded.1 = concluded'.1)
    (halike : Scene.Alike concluded.2 concluded'.2) : Final concluded ↔ Final concluded' := by
  rw [Final, Final, hended, halike.stopped_eq]

/-! ## Orders of calls -/

/-- Calls at the same places, on scenes that cannot be told apart, end in the same way and leave such
scenes, if the elements go by what can be read. -/
theorem Calls.alike {elements : List (Element υ)} {ended ended' : List (Except Halt Unit)}
    (hlength : ended.length = elements.length) (hlength' : ended'.length = elements.length)
    (hreading : ∀ x ∈ elements, x.process.GoesByReading) {places : List Nat} {s t left left' : Scene υ}
    (hcalls : Calls (places.filterMap fun place => (elements.zip ended)[place]?) s left)
    (hcalls' : Calls (places.filterMap fun place => (elements.zip ended')[place]?) t left')
    (halike : Scene.Alike s t) :
    (∀ place ∈ places, ended[place]? = ended'[place]?) ∧ Scene.Alike left left' := by
  -- a place, not an element, tells which end is meant: an element may stand in a group twice
  induction places generalizing s t with
  | nil =>
    obtain rfl : left = s := hcalls
    obtain rfl : left' = t := hcalls'
    exact ⟨nofun, halike⟩
  | cons place rest ih =>
    by_cases hplace : place < elements.length
    · obtain ⟨x, hx⟩ : ∃ x, elements[place]? = some x := ⟨_, List.getElem?_eq_getElem hplace⟩
      obtain ⟨e, he⟩ : ∃ e, ended[place]? = some e := ⟨_, List.getElem?_eq_getElem (by omega)⟩
      obtain ⟨e', he'⟩ : ∃ e', ended'[place]? = some e' := ⟨_, List.getElem?_eq_getElem (by omega)⟩
      have hturn : (elements.zip ended)[place]? = some (x, e) := List.getElem?_zip_eq_some.mpr ⟨hx, he⟩
      have hturn' : (elements.zip ended')[place]? = some (x, e') := List.getElem?_zip_eq_some.mpr ⟨hx, he'⟩
      rw [List.filterMap_cons_some hturn] at hcalls
      rw [List.filterMap_cons_some hturn'] at hcalls'
      obtain ⟨hend, hnext⟩ := hreading x (List.mem_of_getElem? hx) s t halike
      obtain rfl : e = e' := hcalls.1.symm.trans (hend.trans hcalls'.1)
      obtain ⟨hends, hleft⟩ := ih hcalls.2 hcalls'.2 hnext
      exact ⟨List.forall_mem_cons.mpr ⟨he.trans he'.symm, hends⟩, hleft⟩
    · have hnone (ends : List (Except Halt Unit)) : (elements.zip ends)[place]? = none :=
        List.getElem?_eq_none (by rw [List.length_zip]; omega)
      rw [List.filterMap_cons_none (hnone ended)] at hcalls
      rw [List.filterMap_cons_none (hnone ended')] at hcalls'
      obtain ⟨hends, hleft⟩ := ih hcalls hcalls' halike
      refine ⟨List.forall_mem_cons.mpr ⟨?_, hends⟩, hleft⟩
      rw [List.getElem?_eq_none (by omega), List.getElem?_eq_none (by omega)]

namespace Passage

/-- The elements of the stage are called in the order of these places. -/
def InOrder (passage : Passage υ) (places : List Nat) : Prop :=
  places.Perm (List.range passage.stage.elements.length) ∧
    passage.turns = places.filterMap fun place => (passage.stage.elements.zip passage.ended)[place]?

/-- The elements are called in the same order. -/
def SameOrder (a b : Passage υ) : Prop := ∃ places, a.InOrder places ∧ b.InOrder places

/-- Passages of one stage that end in the same way, and leave what cannot be told apart, are concluded in
the same way. -/
theorem concluded_alike {a b : Passage υ} (hstage : a.stage = b.stage) (hended : a.ended = b.ended)
    (halike : Scene.Alike a.left b.left) :
    a.concluded.1 = b.concluded.1 ∧ Scene.Alike a.concluded.2 b.concluded.2 := by
  have hconclude := goesByReading_conclude a.ended a.faults _ _ halike
  rw [concluded, concluded, faults, faults, ← hstage, ← hended]
  exact hconclude

/-- A stage whose elements go by what can be read does so itself, for each order of the calls. -/
theorem SameOrder.alike {a b : Passage υ} (horder : a.SameOrder b) {s t : Scene υ}
    (hstage : a.stage = b.stage) (ha : a.From s) (hb : b.From t)
    (hreading : ∀ x ∈ a.stage.elements, x.process.GoesByReading)
    (halike : Scene.Alike s t) :
    a.concluded.1 = b.concluded.1 ∧ Scene.Alike a.concluded.2 b.concluded.2 := by
  obtain ⟨places, ⟨hperm, hturns⟩, -, hturns'⟩ := horder
  have hcalls := ha.calls
  have hcalls' := hb.calls
  have hlength' := hb.length_eq
  rw [hturns] at hcalls
  rw [hturns', ← hstage] at hcalls'
  rw [← hstage] at hlength'
  obtain ⟨hends, hleft⟩ := Calls.alike ha.length_eq hlength' hreading hcalls hcalls' halike
  refine concluded_alike hstage (List.ext_getElem? fun place => ?_) hleft
  by_cases hplace : place < a.stage.elements.length
  · exact hends place (hperm.mem_iff.mpr (List.mem_range.mpr hplace))
  · have hlength := ha.length_eq
    rw [List.getElem?_eq_none (by omega), List.getElem?_eq_none (by omega)]

end Passage

/-! ## Runs -/

namespace Passes

variable {stage : Stage υ} {stages rest : List (Stage υ)} {s t : Scene υ} {a b : Passage υ}
  {before later later' : List (Passage υ)} {result result' : Except Halt Unit × Scene υ}

/-- What follows on the first passage of a run. -/
theorem cons (h : Passes (stage :: rest) s (a :: later) result) :
    a.stage = stage ∧ a.From s ∧
      (Final a.concluded ∧ later = [] ∧ result = a.concluded ∨
        ¬Final a.concluded ∧ Passes rest a.concluded.2 later result) := by
  cases h with
  | next hstage hfrom hgo hlater => exact ⟨hstage, hfrom, .inr ⟨hgo, hlater⟩⟩
  | last hstage hfrom hfinal => exact ⟨hstage, hfrom, .inl ⟨hfinal, rfl, rfl⟩⟩

/-- Two runs end in the same way if they do behind first passages that are concluded in the same way. -/
theorem alike_cons (h : Passes (stage :: rest) s (a :: later) result)
    (h' : Passes (stage :: rest) t (b :: later') result')
    (hconcluded : a.concluded.1 = b.concluded.1 ∧ Scene.Alike a.concluded.2 b.concluded.2)
    (hlater : Passes rest a.concluded.2 later result → Passes rest b.concluded.2 later' result' →
      result.1 = result'.1 ∧ Scene.Alike result.2 result'.2) :
    result.1 = result'.1 ∧ Scene.Alike result.2 result'.2 := by
  have hfinal := final_congr hconcluded.1 hconcluded.2
  obtain ⟨-, -, ⟨hends, -, rfl⟩ | ⟨hgo, hrest⟩⟩ := h.cons <;>
    obtain ⟨-, -, ⟨hends', -, rfl⟩ | ⟨hgo', hrest'⟩⟩ := h'.cons
  · exact hconcluded
  · exact absurd (hfinal.mp hends) hgo'
  · exact absurd (hfinal.mpr hends') hgo
  · exact hlater hrest hrest'

/-- Runs in the same orders of calls, from scenes that cannot be told apart, end in the same way and leave
such scenes, if the elements go by what can be read. -/
theorem alike (h : Passes stages s later result) (h' : Passes stages t later' result')
    (hreading : ∀ x ∈ elementsOf stages, x.process.GoesByReading)
    (horders : ∀ pair ∈ later.zip later', pair.1.SameOrder pair.2) (halike : Scene.Alike s t) :
    result.1 = result'.1 ∧ Scene.Alike result.2 result'.2 := by
  induction stages generalizing s t later later' with
  | nil =>
    cases h
    cases h'
    exact ⟨rfl, halike⟩
  | cons stage rest ih =>
    obtain ⟨a, later, rfl⟩ : ∃ a tail, later = a :: tail := by cases h <;> exact ⟨_, _, rfl⟩
    obtain ⟨b, later', rfl⟩ : ∃ b tail, later' = b :: tail := by cases h' <;> exact ⟨_, _, rfl⟩
    rw [List.zip_cons_cons, List.forall_mem_cons] at horders
    obtain ⟨rfl, hfrom, -⟩ := h.cons
    obtain ⟨hstage, hfrom', -⟩ := h'.cons
    rw [elementsOf, List.flatMap_cons, List.forall_mem_append] at hreading
    have hconcluded := horders.1.alike hstage.symm hfrom hfrom' hreading.1 halike
    exact h.alike_cons h' hconcluded fun hrest hrest' => ih hrest hrest' hreading.2 horders.2 hconcluded.2

/-- The later passages of a run are those of a run of the later stages. -/
theorem drop (h : Passes stages s (before ++ a :: later) result) :
    Passes (stages.drop before.length) (reached s before) (a :: later) result := by
  induction before generalizing stages s with
  | nil => exact h
  | cons first before ih =>
    cases stages with
    | nil => cases h
    | cons stage rest =>
      obtain ⟨-, -, ⟨-, hnone, -⟩ | ⟨-, hrest⟩⟩ := h.cons
      · cases List.append_ne_nil_of_right_ne_nil before (List.cons_ne_nil a later) hnone
      · exact ih hrest

end Passes

/-- Two runs of a pipeline that differ in no more than the order in which the elements of one group are
called end in the same way and leave the same data, the same incidents in the same order and the same mark
of a stop, if the elements of the group keep to their keys, which differ, and those of the stages behind it
go by what can be read. The numbers of result objects cannot be: they would tell who was called first. -/
theorem result_eq_of_orders {p : Pipeline υ} {scene : Scene υ} {group : List (Element υ)} {a b : Passage υ}
    {before later later' : List (Passage υ)} {result result' : Except Halt Unit × Scene υ}
    (hrun : p.Processes scene (before ++ a :: later) result)
    (hrun' : p.Processes scene (before ++ b :: later') result') (hgroup : a.stage = .parallel group)
    (hkeys : (group.map (·.key)).Nodup) (hground : (reached (begun scene) before).Grounded)
    (hkeeps : ∀ x ∈ group, ∃ c, x.KeepsTo (x.othersIn group) (reached (begun scene) before).reading c)
    (hreading : ∀ x ∈ elementsOf (p.stages.drop (before.length + 1)), x.process.GoesByReading)
    (horders : ∀ pair ∈ later.zip later', pair.1.SameOrder pair.2) :
    result.1 = result'.1 ∧ (∀ key, result.2.flow.holding? key = result'.2.flow.holding? key) ∧
      result.2.flow.incidents = result'.2.flow.incidents ∧ result.2.flow.stopped = result'.2.flow.stopped ∧
        result.2.reading = result'.2.reading := by
  have hsome (passage : Passage υ) (rest : List (Passage υ)) : before ++ passage :: rest ≠ [] :=
    List.append_ne_nil_of_right_ne_nil before (List.cons_ne_nil passage rest)
  obtain ⟨ran, rfl, hpasses⟩ := hrun.passes_of_ne_nil (hsome a later)
  obtain ⟨ran', rfl, hpasses'⟩ := hrun'.passes_of_ne_nil (hsome b later')
  replace hpasses := hpasses.drop
  replace hpasses' := hpasses'.drop
  rw [← List.tail_drop] at hreading
  cases hstages : p.stages.drop before.length with
  | nil =>
    rw [hstages] at hpasses
    cases hpasses
  | cons stage rest =>
    rw [hstages] at hpasses hpasses' hreading
    obtain ⟨rfl, hfrom, -⟩ := hpasses.cons
    obtain ⟨hstage, hfrom', -⟩ := hpasses'.cons
    -- both orders of the group add up to the same, which is concluded in the same way
    have helements : a.stage.elements = group := congrArg Stage.elements hgroup
    have helements' : b.stage.elements = group := congrArg Stage.elements (hstage.trans hgroup)
    choose! c hc using hkeeps
    obtain ⟨hended, hleft, hadded⟩ := hfrom.eq_addAll (helements ▸ hkeys) hground (helements ▸ hc)
    obtain ⟨hended', hleft', hadded'⟩ := hfrom'.eq_addAll (helements' ▸ hkeys) hground (helements' ▸ hc)
    rw [helements] at hended hadded
    rw [helements'] at hended' hadded'
    have hconcluded := Passage.concluded_alike hstage.symm (hended.trans hended'.symm)
      ⟨hleft, hleft', hadded.trans hadded'.symm⟩
    obtain ⟨hends, halike⟩ := hpasses.alike_cons hpasses' hconcluded fun hrest hrest' =>
      hrest.alike hrest' hreading horders hconcluded.2
    obtain ⟨hresult, halike⟩ := reported_alike p.settings hends halike
    exact ⟨hresult, halike.holding?_eq, halike.incidents_eq, halike.stopped_eq, halike.reading_eq⟩

/-! ## A group that answers in any order -/

/-- The text that is held, if it is one. -/
def textOf : Option Holding → Json
  | some (.text s) => .str s
  | _ => .null

/-- An element that answers by the text under another key in a new result object, may stop the flow and
ends as it is told. -/
def answering (key source : String) (stops : Bool) (ended : Except Fault Unit) : Element υ where
  number := 0
  key := key
  filter := .all
  process := do
    let flow := (← get).flow
    let object ← Act.objectAt key
    Act.modifyObject object fun aspect => aspect.set "answer" (textOf (flow.holding? source))
    if stops then Act.stop
    Act.ofExcept ended

/-- What the element leaves under its key. -/
def answer (key : String) (source : Option Holding) : Aspect :=
  ({ key := key } : Aspect).set "answer" (textOf source)

/-- The element leaves a new result object with its answer, and may stop the flow. -/
theorem runOn_answering {key : String} (source : String) (stops : Bool) (ended : Except Fault Unit)
    {scene : Scene υ} (hfree : scene.flow.datum? key = none) :
    let made := scene.make key (answer key (scene.flow.holding? source))
    (answering key source stops ended).process.runOn scene =
      (ended.mapError .fault, if stops then made.stop else made) := by
  intro made
  have hmade : (Act.modifyObject scene.flow.objects.length fun aspect =>
      aspect.set "answer" (textOf (scene.flow.holding? source)) : Act υ Unit).runOn
        { scene with flow := scene.flow.make key { key := key } } = (.ok (), made) := by
    rw [Act.modifyObject, Act.runOn_onFlow, Flow.modifyObject_make]
    rfl
  simp only [answering, Act.runOn_bind, Act.runOn_get, Act.objectAt, Act.runOn_onFlow,
    Flow.objectAt_eq_make hfree, Act.ofExcept, Act.runOn_pure, hmade]
  cases stops <;> cases ended <;> rfl

/-- The element keeps to its key, if nothing is there and the key by which it answers is no other one's. -/
theorem keepsTo_answering {key source : String} (stops : Bool) (ended : Except Fault Unit)
    {others : String → Prop} {start : Reading υ} (hfree : start.holdings key = none) (hkey : ¬others key)
    (hsource : ¬others source) :
    (answering key source stops ended : Element υ).KeepsTo others start
      { ended := ended.mapError .fault
        written? := some { holding := some (.object (some (answer key (start.holdings source))))
                           partners := fun _ => False }
        stops } where
  apart w hw key _ := by
    cases hw
    exact not_false
  call scene hground hagrees := by
    have hnone : scene.flow.datum? key = none :=
      Option.map_eq_none_iff.mp ((hagrees.holdings key hkey).trans hfree)
    have hsame : scene.flow.holding? source = start.holdings source := hagrees.holdings source hsource
    rw [runOn_answering source stops ended hnone, hsame]
    obtain ⟨hmade, hreading⟩ := Scene.reading_make hground key (answer key (start.holdings source))
    obtain ⟨hstopped, hstop⟩ := Scene.reading_stopIf hmade stops
    refine ⟨rfl, hstopped, ?_⟩
    rw [hstop, hreading, Reading.add, ← Reading.stopIf_leave]
    rfl

/-- To note a key and end as told is to go by what can be read. -/
theorem goesByReading_told (key : String) (ended : Except Fault Unit) :
    (told key ended).process.GoesByReading := by
  refine .bind (.modifyGet (fun scene => ⟨rfl, rfl⟩) fun s t hrest => ⟨rfl, ?_⟩) fun _ => .ofExcept _
  exact congrArg (fun scene : Scene (List String) =>
    { scene with shared := { scene.shared with user := scene.shared.user ++ [key] } }) hrest

/-- The passage in which the elements are called in the reverse order. -/
def Passage.reversed (stage : Stage υ) (scene : Scene υ) : Passage υ where
  stage := stage
  ended := (runAll stage.elements.reverse scene).1.reverse
  turns := stage.elements.reverse.zip (runAll stage.elements.reverse scene).1
  left := (runAll stage.elements.reverse scene).2

/-- The elements may be called in the reverse order. -/
theorem Passage.reversed_from (stage : Stage υ) (scene : Scene υ) : (reversed stage scene).From scene := by
  obtain ⟨hcalls, hlength⟩ := calls_runAll stage.elements.reverse scene
  refine ⟨?_, ?_, hcalls⟩
  · simpa [reversed] using hlength
  · have hreverse := List.reverse_zipWith (f := Prod.mk) hlength.symm
    rw [List.reverse_reverse] at hreverse
    change (List.zipWith Prod.mk _ _).Perm (List.zipWith Prod.mk _ _)
    rw [reversed, ← hreverse]
    exact (List.reverse_perm _).symm

/-- An element is followed by three that answer by what it leaves; two of them fail, and one stops the
flow. -/
def asked : Pipeline (List String) where
  stages :=
    [.single
        { number := 0, key := "first", filter := .all
          process := Act.onFlow fun flow => ((), flow.set "first" (.text "yes")) },
      .parallel
        [answering "left" "first" false (.error (.element "left" "late")),
          answering "middle" "first" true (.ok ()),
          answering "right" "first" false (.error (.element "right" "lost"))],
      .single (told "last" (.ok ()))]

/-- Whether the three are called as they are declared or the other way round, the incidents of the left and
of the right one are recorded in this order. -/
theorem result_eq_of_orders_of_asked :
    ∃ (first a b : Passage (List String)) (result result' : Except Halt Unit × Scene (List String)),
      asked.Processes untouched [first, a] result ∧ asked.Processes untouched [first, b] result' ∧
        a.turns.map (·.1.key) = ["left", "middle", "right"] ∧
        b.turns.map (·.1.key) = ["right", "middle", "left"] ∧
        result.1 = result'.1 ∧ result.2.reading = result'.2.reading ∧
        result'.2.flow.incidents.map (·.element) = ["left", "right"] := by
  let first := Passage.declared asked.stages[0] (begun untouched)
  let a := Passage.declared asked.stages[1] first.concluded.2
  let b := Passage.reversed asked.stages[1] first.concluded.2
  have hrun : asked.Processes untouched ([first] ++ [a]) (reported asked.settings a.concluded) :=
    .ran rfl rfl (.next rfl (Passage.declared_from _ _) (not_final_iff.mpr ⟨rfl, rfl⟩)
      (.last rfl (Passage.declared_from _ _) (.inr (by decide +kernel))))
  have hrun' : asked.Processes untouched ([first] ++ [b]) (reported asked.settings b.concluded) :=
    .ran rfl rfl (.next rfl (Passage.declared_from _ _) (not_final_iff.mpr ⟨rfl, rfl⟩)
      (.last rfl (Passage.reversed_from _ _) (.inr (by decide +kernel))))
  have hdata : (reached (begun untouched) [first]).flow.data = [("first", .text "yes")] := rfl
  have hground : (reached (begun untouched) [first]).Grounded := by
    intro key id hheld
    rw [Flow.HoldsObject, Flow.datum?, hdata, List.lookup_cons] at hheld
    split at hheld <;> cases hheld
  have hfree (key : String) (hkey : key ≠ "first") :
      (reached (begun untouched) [first]).reading.holdings key = none := by
    have hnone : (reached (begun untouched) [first]).flow.datum? key = none := by
      rw [Flow.datum?, hdata, Table.lookup_cons_of_ne hkey]
      rfl
    exact Option.map_eq_none_iff.mpr hnone
  have hkeeps : ∀ x ∈ asked.stages[1].elements, ∃ c,
      x.KeepsTo (x.othersIn asked.stages[1].elements) (reached (begun untouched) [first]).reading c := by
    have hfirst : "first" ∉ asked.stages[1].elements.map (·.key) := by decide
    have hsource (x : Element (List String)) : ¬x.othersIn asked.stages[1].elements "first" :=
      fun hother => hfirst (List.mem_map.mpr hother.2)
    intro x hx
    obtain rfl | rfl | rfl : x = answering "left" "first" false (.error (.element "left" "late")) ∨
        x = answering "middle" "first" true (.ok ()) ∨
        x = answering "right" "first" false (.error (.element "right" "lost")) := by
      simpa [asked, Stage.elements] using hx
    all_goals
      exact ⟨_, keepsTo_answering _ _ (hfree _ (by decide)) (fun hother => hother.1 rfl) (hsource _)⟩
  have hreading : ∀ x ∈ elementsOf (asked.stages.drop 2), x.process.GoesByReading := by
    intro x hx
    obtain rfl := List.mem_singleton.mp hx
    exact goesByReading_told _ _
  obtain ⟨hend, -, -, -, hsame⟩ :=
    result_eq_of_orders hrun hrun' rfl (by decide) hground hkeeps hreading (by simp)
  exact ⟨first, a, b, _, _, hrun, hrun', rfl, rfl, hend, hsame, by decide +kernel⟩

end EvidenceFlow.Pipeline
