import EvidenceFlow.Scene

/-!
# What acts do

An act may be known to do one thing to a flow whatever is kept between flows, or to preserve what holds
of a scene. Both are known of a sequence of acts if they are known of its parts.
-/

namespace EvidenceFlow

variable {υ α β : Type}

/-! ## What acts do to flows -/

/-- What an act does to a flow, whatever is kept between flows, if it is kept as it should be. -/
def Act.Does (act : Act υ α) (kept : Shared υ → Prop) (flow : Flow) (ended : Except Halt α)
    (after : Flow) : Prop :=
  ∀ shared, kept shared →
    ∃ shared', act.runOn { flow, shared } = (ended, { flow := after, shared := shared' }) ∧
      kept shared'

namespace Act.Does

variable {kept : Shared υ → Prop} {flow after : Flow}

/-- An act is followed by another one. -/
theorem bind {act : Act υ α} {next : α → Act υ β} {x : α} {ended : Except Halt β} {last : Flow}
    (hact : act.Does kept flow (.ok x) after) (hnext : (next x).Does kept after ended last) :
    (act >>= next).Does kept flow ended last := by
  intro shared hkept
  obtain ⟨shared', hrun, hkept'⟩ := hact shared hkept
  obtain ⟨shared'', hlast, hkept''⟩ := hnext shared' hkept'
  refine ⟨shared'', ?_, hkept''⟩
  rw [runOn_bind, hrun]
  exact hlast

/-- An act that ends early is not followed by another one. -/
theorem bind_error {act : Act υ α} {next : α → Act υ β} {halt : Halt}
    (hact : act.Does kept flow (.error halt) after) :
    (act >>= next).Does kept flow (.error halt) after := by
  intro shared hkept
  obtain ⟨shared', hrun, hkept'⟩ := hact shared hkept
  refine ⟨shared', ?_, hkept'⟩
  rw [runOn_bind, hrun]

/-- What follows may be chosen by a look at the flow. -/
theorem get_bind {k : Flow → Act υ α} {ended : Except Halt α}
    (hnext : (k flow).Does kept flow ended after) :
    (get >>= fun scene => k scene.flow).Does kept flow ended after := by
  intro shared hkept
  rw [runOn_bind]
  exact hnext shared hkept

/-- An act that looks only at the flow and changes only the flow. -/
theorem of_runOn {act : Act υ α} {ended : Except Halt α}
    (hact : ∀ shared, act.runOn { flow, shared } = (ended, { flow := after, shared })) :
    act.Does kept flow ended after :=
  fun shared hkept => ⟨shared, hact shared, hkept⟩

end Act.Does

/-! ## What acts preserve -/

/-- An act preserves what holds of a scene, however it ends. -/
def Act.Preserves (act : Act υ α) (inv : Scene υ → Prop) : Prop :=
  ∀ scene, inv scene → inv (act.runOn scene).2

namespace Act.Preserves

variable {inv : Scene υ → Prop}

/-- What holds after two acts, by how the first one ends. -/
theorem holds_bind {act : Act υ α} {next : α → Act υ β} {scene : Scene υ}
    (herror : ∀ halt after, act.runOn scene = (.error halt, after) → inv after)
    (hok : ∀ x after, act.runOn scene = (.ok x, after) → inv ((next x).runOn after).2) :
    inv ((act >>= next).runOn scene).2 := by
  rw [runOn_bind]
  rcases hrun : act.runOn scene with ⟨ended, after⟩
  cases ended with
  | ok x => exact hok x after hrun
  | error halt => exact herror halt after hrun

/-- Acts that preserve it do so one after the other. -/
theorem bind {act : Act υ α} {next : α → Act υ β} (hact : act.Preserves inv)
    (hnext : ∀ x, (next x).Preserves inv) : (act >>= next).Preserves inv := by
  intro scene h
  have hfirst := hact scene h
  refine holds_bind ?_ ?_
  · intro halt after hrun
    rwa [hrun] at hfirst
  · intro x after hrun
    rw [hrun] at hfirst
    exact hnext x after hfirst

/-- A value changes nothing. -/
theorem pure (x : α) : (pure x : Act υ α).Preserves inv := fun _ h => h

/-- An early end changes nothing. -/
theorem throw (halt : Halt) : (throw halt : Act υ α).Preserves inv := fun _ h => h

/-- A fault changes nothing. -/
theorem fail (fault : Fault) : (fail fault : Act υ α).Preserves inv := fun _ h => h

/-- To look at the scene changes nothing. -/
theorem get : (get : Act υ (Scene υ)).Preserves inv := fun _ h => h

/-- To take a result as it is changes nothing. -/
theorem ofExcept (result : Except Fault α) : (ofExcept result : Act υ α).Preserves inv := by
  cases result with
  | ok x => exact pure x
  | error fault => exact fail fault

/-- An act whose end is looked at preserves what it preserves. -/
theorem modifyGet_runOn {act : Act υ α} (h : act.Preserves inv) :
    (modifyGet act.runOn : Act υ (Except Halt α)).Preserves inv := h

/-- An act whose value is discarded preserves what it preserves. -/
theorem discard {act : Act υ α} (h : act.Preserves inv) : (discard act).Preserves inv := by
  intro scene hscene
  rw [runOn_discard]
  exact h scene hscene

end Act.Preserves

end EvidenceFlow
