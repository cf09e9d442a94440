import EvidenceFlow.Proofs.Flow.Readings
import EvidenceFlow.Proofs.Pipeline.RunLaw
import Mathlib.Data.List.Nodup

/-!
# What elements contribute

An element that keeps to its own key contributes what it ends with, what it leaves under the key, and
perhaps a stop of the flow. What elements of different keys contribute adds up to the same in any order.
-/

namespace EvidenceFlow

variable {υ : Type}

/-! ## Contributions -/

/-- What an element leaves under its key. -/
structure Written where
  /-- What can be read there. -/
  holding : Option Holding
  /-- The other keys that hold the same result object. -/
  partners : String → Prop

/-- What an element contributes to the flow. -/
structure Contribution where
  /-- What the element ends with. -/
  ended : Except Halt Unit
  /-- What it leaves under its key, if it changes that. -/
  written? : Option Written := none
  /-- Whether it stops the flow. -/
  stops : Bool := false

instance : Inhabited Contribution := ⟨{ ended := .ok () }⟩

/-- The scene with its flow stopped. -/
def Scene.stop (scene : Scene υ) : Scene υ := (Act.stop.runOn scene).2

/-- To stop a flow again changes nothing. -/
theorem Scene.stop_stop (scene : Scene υ) : scene.stop.stop = scene.stop := rfl

namespace Reading

/-- The reading after something is left under a key. -/
def write (reading : Reading υ) (key : String) (written : Written) : Reading υ where
  holdings := Function.update reading.holdings key written.holding
  shares a b :=
    if a = key then b ≠ key ∧ written.partners b
    else if b = key then written.partners a
    else reading.shares a b
  rest := reading.rest

/-- The reading after something may have been left under a key. -/
def leave (reading : Reading υ) (key : String) : Option Written → Reading υ
  | some written => reading.write key written
  | none => reading

/-- The reading after the flow may have been stopped. -/
def stopIf (reading : Reading υ) (stops : Bool) : Reading υ :=
  if stops then { reading with rest := reading.rest.stop } else reading

/-- The reading after a contribution under a key. -/
def add (reading : Reading υ) (key : String) (c : Contribution) : Reading υ :=
  (reading.stopIf c.stops).leave key c.written?

/-- What is left under different keys may be left in both orders. -/
theorem write_comm (reading : Reading υ) {key other : String} (hne : key ≠ other) {w v : Written}
    (hw : ¬w.partners other) (hv : ¬v.partners key) :
    (reading.write key w).write other v = (reading.write other v).write key w := by
  refine Reading.ext ?_ ?_ rfl
  · exact Function.update_comm hne _ _ _
  · funext a b
    simp only [write]
    grind

/-- What may be left under different keys may be left in both orders. -/
theorem leave_comm (reading : Reading υ) {key other : String} (hne : key ≠ other) {w? v? : Option Written}
    (hw : ∀ w ∈ w?, ¬w.partners other) (hv : ∀ v ∈ v?, ¬v.partners key) :
    (reading.leave key w?).leave other v? = (reading.leave other v?).leave key w? := by
  cases w? with
  | none => rfl
  | some w =>
    cases v? with
    | none => rfl
    | some v => exact write_comm reading hne (hw w rfl) (hv v rfl)

/-- It does not matter whether a stop comes before or after what is left. -/
theorem stopIf_leave (reading : Reading υ) (key : String) (w? : Option Written) (stops : Bool) :
    (reading.leave key w?).stopIf stops = (reading.stopIf stops).leave key w? := by
  cases w? <;> cases stops <;> rfl

/-- Stops may come in both orders. -/
theorem stopIf_comm (reading : Reading υ) (stops others : Bool) :
    (reading.stopIf stops).stopIf others = (reading.stopIf others).stopIf stops := by
  cases stops <;> cases others <;> rfl

/-- Contributions under different keys add up to the same in both orders, if neither key is to hold an
object of the other one. -/
theorem add_comm (reading : Reading υ) {key other : String} (hne : key ≠ other) {c d : Contribution}
    (hc : ∀ w ∈ c.written?, ¬w.partners other) (hd : ∀ v ∈ d.written?, ¬v.partners key) :
    (reading.add key c).add other d = (reading.add other d).add key c := by
  simp only [add, stopIf_leave]
  rw [leave_comm _ hne hc hd, stopIf_comm]

/-- A reading differs from that at the start at most in what other elements contributed: in what is under
their keys, which do not hold what is under the element's own key, and by a stop. -/
structure AgreesBut (own : String) (others : String → Prop) (start reading : Reading υ) : Prop where
  /-- The same is held under all keys that are not those of others. -/
  holdings : ∀ key, ¬others key → reading.holdings key = start.holdings key
  /-- The same of these keys hold one object. -/
  shares : ∀ a b, ¬others a → ¬others b → (reading.shares a b ↔ start.shares a b)
  /-- Nobody else took the object under the own key. -/
  own_shares : ∀ key, others key → reading.shares own key → start.shares own key
  /-- The flow may have been stopped. -/
  rest : reading.rest = start.rest ∨ reading.rest = start.rest.stop

namespace AgreesBut

variable {own key : String} {others : String → Prop} {start reading : Reading υ}

/-- The reading at the start differs in nothing. -/
theorem refl (own : String) (others : String → Prop) (start : Reading υ) : AgreesBut own others start start :=
  ⟨fun _ _ => rfl, fun _ _ _ _ => .rfl, fun _ _ h => h, .inl rfl⟩

/-- Another element may stop the flow. -/
theorem stopIf (h : AgreesBut own others start reading) (stops : Bool) :
    AgreesBut own others start (reading.stopIf stops) := by
  cases stops with
  | false => exact h
  | true =>
    refine ⟨h.holdings, h.shares, h.own_shares, .inr ?_⟩
    change reading.rest.stop = start.rest.stop
    rcases h.rest with hsame | hstop
    · rw [hsame]
    · rw [hstop, Scene.stop_stop]

/-- Another element contributes. -/
theorem add (h : AgreesBut own others start reading) (hown : ¬others own) (hkey : others key)
    {c : Contribution} (hpartners : ∀ w ∈ c.written?, ¬w.partners own) :
    AgreesBut own others start (reading.add key c) := by
  replace h := h.stopIf c.stops
  rw [Reading.add]
  cases hwritten : c.written? with
  | none => exact h
  | some w =>
    have hne (k : String) (hk : ¬others k) : k ≠ key := fun heq => hk (heq ▸ hkey)
    refine ⟨fun k hk => ?_, fun a b ha hb => ?_, fun k hk hshares => ?_, h.rest⟩
    · exact (Function.update_of_ne (hne k hk) _ _).trans (h.holdings k hk)
    · simp only [leave, write, if_neg (hne a ha), if_neg (hne b hb)]
      exact h.shares a b ha hb
    · simp only [leave, write, if_neg (hne own hown)] at hshares
      split at hshares
      · exact absurd hshares (hpartners w hwritten)
      · exact h.own_shares k hk hshares

end AgreesBut

end Reading

/-! ## New result objects -/

namespace Flow

/-- The flow with a new result object under a key. -/
def make (flow : Flow) (key : String) (content : Aspect) : Flow :=
  { flow with objects := flow.objects ++ [content] }.set key (.object flow.objects.length)

/-- A result object that is changed once it is made is made as it is then. -/
theorem modifyObject_make (flow : Flow) (key : String) (content : Aspect) (f : Aspect → Aspect) :
    (flow.make key content).modifyObject flow.objects.length f = flow.make key (f content) := by
  have hlast (objects : List Aspect) :
      (objects ++ [content]).modify objects.length f = objects ++ [f content] := by
    induction objects with
    | nil => rfl
    | cons first rest ih => exact congrArg (List.cons first) ih
  simp only [modifyObject, make, set, hlast]

/-- Where nothing is held under a key, the result object there is a new one. -/
theorem objectAt_eq_make {flow : Flow} {key : String} (h : flow.datum? key = none) :
    flow.objectAt key = (.ok flow.objects.length, flow.make key { key := key }) := by
  rw [objectAt, h]
  rfl

/-- Under the key there is the new result object, and under others what was there. -/
theorem datum?_make (flow : Flow) (key other : String) (content : Aspect) :
    (flow.make key content).datum? other =
      if other = key then some (.object flow.objects.length) else flow.datum? other := by
  rw [datum?, make, set, Table.lookup_put]
  rfl

/-- The new result object is there, and the others stay as they are. -/
theorem object?_make (flow : Flow) (key : String) (content : Aspect) (id : ObjectId) :
    (flow.make key content).object? id =
      if id = flow.objects.length then some content else flow.object? id := by
  change (flow.objects ++ [content])[id]? = _
  split
  · next hlast => rw [hlast, List.getElem?_concat_length]
  · next hother =>
    rcases Nat.lt_or_gt_of_ne hother with hlt | hgt
    · exact List.getElem?_append_left hlt
    · rw [List.getElem?_eq_none (by rw [List.length_append]; exact hgt)]
      exact (List.getElem?_eq_none (Nat.le_of_lt hgt)).symm

/-- The key holds the new result object, and others what they held. -/
theorem holdsObject_make {flow : Flow} {key other : String} {content : Aspect} {id : ObjectId} :
    (flow.make key content).HoldsObject other id ↔
      if other = key then id = flow.objects.length else flow.HoldsObject other id := by
  rw [HoldsObject, datum?_make]
  split
  · simp [eq_comm]
  · rfl

end Flow

/-- The scene with a new result object under a key. -/
def Scene.make (scene : Scene υ) (key : String) (content : Aspect) : Scene υ :=
  { scene with flow := scene.flow.make key content }

/-- A new result object can be read under its key and nowhere else. -/
theorem Scene.reading_make {scene : Scene υ} (h : scene.Grounded) (key : String) (content : Aspect) :
    (scene.make key content).Grounded ∧
      (scene.make key content).reading =
        scene.reading.write key { holding := some (.object (some content)), partners := fun _ => False } := by
  have hlength : (scene.make key content).flow.objects.length = scene.flow.objects.length + 1 :=
    List.length_append
  have hlast (other : String) : ¬scene.flow.HoldsObject other scene.flow.objects.length := fun hholds =>
    Nat.lt_irrefl _ (h other _ hholds)
  refine ⟨fun other id hholds => ?_, Reading.ext (funext fun other => ?_) (funext₂ fun a b => propext ?_) rfl⟩
  · rw [hlength]
    rw [make, Flow.holdsObject_make] at hholds
    split at hholds
    · exact hholds ▸ Nat.lt_succ_self _
    · exact Nat.lt_succ_of_lt (h other id hholds)
  · change (scene.flow.make key content).holding? other = Function.update scene.flow.holding? key _ other
    rw [Flow.holding?, Flow.datum?_make]
    by_cases hkey : other = key
    · rw [if_pos hkey, hkey, Function.update_self, Option.map_some, Flow.holding, Flow.object?_make,
        if_pos rfl]
    · rw [if_neg hkey, Function.update_of_ne hkey]
      refine Option.map_congr fun datum hdatum => ?_
      cases datum with
      | text | number | json => rfl
      | object id =>
        have hother : id ≠ scene.flow.objects.length := fun heq => hlast other (heq ▸ hdatum)
        rw [Flow.holding, Flow.object?_make, if_neg hother]
        rfl
  · change (scene.flow.make key content).Shares a b ↔ _
    simp only [Flow.Shares, Flow.holdsObject_make, Reading.write]
    by_cases ha : a = key
    · subst ha
      simp only [if_true, and_false, iff_false]
      rintro ⟨hne, id, rfl, hheld⟩
      rw [if_neg (Ne.symm hne)] at hheld
      exact hlast b hheld
    · by_cases hb : b = key
      · subst hb
        simp only [if_neg ha, if_true, iff_false]
        rintro ⟨-, id, hheld, rfl⟩
        exact hlast a hheld
      · simp only [if_neg ha, if_neg hb]
        rfl

/-- A stop can be read, and changes nothing of the data. -/
theorem Scene.reading_stopIf {scene : Scene υ} (h : scene.Grounded) (stops : Bool) :
    (if stops then scene.stop else scene).Grounded ∧
      (if stops then scene.stop else scene).reading = scene.reading.stopIf stops := by
  cases stops with
  | false => exact ⟨h, rfl⟩
  | true =>
    obtain ⟨hground, hreading⟩ := reading_of_data (s := scene) (t := scene.stop) ⟨rfl, rfl⟩
    exact ⟨hground.mpr h, hreading⟩

/-! ## Elements that keep to their keys -/

/-- The keys of the other elements of a group. -/
def Element.othersIn (x : Element υ) (group : List (Element υ)) (key : String) : Prop :=
  key ≠ x.key ∧ ∃ y ∈ group, y.key = key

/-- Called after any of the other elements, the element contributes the same, and under its own key. -/
structure Element.KeepsTo (x : Element υ) (others : String → Prop) (start : Reading υ) (c : Contribution) :
    Prop where
  /-- What it leaves is not what is under the key of another one. -/
  apart : ∀ w ∈ c.written?, ∀ key, others key → ¬w.partners key
  /-- It goes by nothing that the others contribute, and changes nothing but what it contributes. -/
  call : ∀ scene : Scene υ, scene.Grounded → start.AgreesBut x.key others scene.reading →
    (x.process.runOn scene).1 = c.ended ∧ (x.process.runOn scene).2.Grounded ∧
      (x.process.runOn scene).2.reading = scene.reading.add x.key c

namespace Pipeline

variable {group : List (Element υ)} {start : Reading υ} {c : Element υ → Contribution}

/-- What is read after some elements have contributed, one after the other. -/
def addAll (c : Element υ → Contribution) (reading : Reading υ) (elements : List (Element υ)) : Reading υ :=
  elements.foldl (fun reading x => reading.add x.key (c x)) reading

/-- Calls of elements that keep to their keys end with and leave what the elements contribute. -/
theorem Calls.addAll (hkeeps : ∀ x ∈ group, x.KeepsTo (x.othersIn group) start (c x))
    {turns : List (Turn υ)} {before after : Scene υ} (hcalls : Calls turns before after)
    (hmembers : ∀ turn ∈ turns, turn.1 ∈ group) (hkeys : (turns.map (·.1.key)).Nodup)
    (hground : before.Grounded)
    (hbefore : ∀ turn ∈ turns, start.AgreesBut turn.1.key (turn.1.othersIn group) before.reading) :
    (∀ turn ∈ turns, turn.2 = (c turn.1).ended) ∧ after.Grounded ∧
      after.reading = Pipeline.addAll c before.reading (turns.map (·.1)) := by
  induction turns generalizing before with
  | nil =>
    obtain rfl : after = before := hcalls
    exact ⟨nofun, hground, rfl⟩
  | cons first rest ih =>
    obtain ⟨hended, hlater⟩ := hcalls
    rw [List.forall_mem_cons] at hmembers hbefore
    rw [List.map_cons, List.nodup_cons] at hkeys
    have hfirst := hkeeps first.1 hmembers.1
    obtain ⟨hend, hground', hreading⟩ := hfirst.call before hground hbefore.1
    have hother (turn : Turn υ) (hturn : turn ∈ rest) : first.1.key ≠ turn.1.key := fun heq =>
      hkeys.1 (heq ▸ List.mem_map_of_mem hturn)
    -- to those that are still to come the first element is one of the others
    obtain ⟨hends, hgrounded, hread⟩ := ih hlater hmembers.2 hkeys.2 hground' fun turn hturn => by
      rw [hreading]
      refine (hbefore.2 turn hturn).add (fun hown => hown.1 rfl)
        ⟨hother turn hturn, first.1, hmembers.1, rfl⟩ fun w hw => ?_
      exact hfirst.apart w hw _ ⟨(hother turn hturn).symm, turn.1, hmembers.2 turn hturn, rfl⟩
    refine ⟨List.forall_mem_cons.mpr ⟨hended.symm.trans hend, hends⟩, hgrounded, ?_⟩
    rw [hread, hreading]
    rfl

/-- What elements of different keys contribute adds up to the same in any order. -/
theorem addAll_perm (hkeys : (group.map (·.key)).Nodup)
    (hkeeps : ∀ x ∈ group, x.KeepsTo (x.othersIn group) start (c x)) {order : List (Element υ)}
    (hperm : order.Perm group) (reading : Reading υ) :
    addAll c reading order = addAll c reading group := by
  refine hperm.foldl_eq' (fun x hx y hy reading => ?_) reading
  replace hx := hperm.mem_iff.mp hx
  replace hy := hperm.mem_iff.mp hy
  by_cases hsame : x.key = y.key
  · rw [List.inj_on_of_nodup_map hkeys hx hy hsame]
  · exact reading.add_comm hsame (fun w hw => (hkeeps x hx).apart w hw _ ⟨Ne.symm hsame, y, hy, rfl⟩)
      fun v hv => (hkeeps y hy).apart v hv _ ⟨hsame, x, hx, rfl⟩

/-- A group whose elements keep to their keys ends and leaves what they contribute, whatever the order of
the calls. -/
theorem Passage.From.eq_addAll {passage : Passage υ} {scene : Scene υ} (h : passage.From scene)
    (hkeys : (passage.stage.elements.map (·.key)).Nodup) (hground : scene.Grounded)
    (hkeeps : ∀ x ∈ passage.stage.elements,
      x.KeepsTo (x.othersIn passage.stage.elements) scene.reading (c x)) :
    passage.ended = passage.stage.elements.map (fun x => (c x).ended) ∧ passage.left.Grounded ∧
      passage.left.reading = addAll c scene.reading passage.stage.elements := by
  have hperm := h.map_turns_perm
  have hkeys' : ((passage.turns.map Prod.fst).map (·.key)).Nodup := (hperm.map _).nodup_iff.mpr hkeys
  rw [List.map_map] at hkeys'
  obtain ⟨hends, hgrounded, hreading⟩ := h.calls.addAll hkeeps (fun turn => h.mem_elements) hkeys' hground
    fun turn _ => .refl _ _ _
  refine ⟨?_, hgrounded, hreading.trans (addAll_perm hkeys hkeeps hperm _)⟩
  calc passage.ended
    _ = (passage.stage.elements.zip passage.ended).map Prod.snd :=
      (List.map_snd_zip (Nat.le_of_eq h.length_eq)).symm
    _ = (passage.stage.elements.zip passage.ended).map (fun turn => (c turn.1).ended) :=
      List.map_congr_left fun turn hturn => hends turn (h.perm.mem_iff.mpr hturn)
    _ = ((passage.stage.elements.zip passage.ended).map Prod.fst).map (fun x => (c x).ended) := by
      rw [List.map_map]
      rfl
    _ = passage.stage.elements.map (fun x => (c x).ended) := by
      rw [List.map_fst_zip (Nat.le_of_eq h.length_eq.symm)]

end Pipeline

end EvidenceFlow
