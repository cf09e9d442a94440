import EvidenceFlow.Proofs.Cache.FlightOrder

/-!
# The table of running loads is emptied

Each cell in the table is looked after: by the leader that has claimed it and will strike it, or by a
call that waits to claim it. Only a cell whose loader was broken off may be left alone.
-/

namespace EvidenceFlow.SingleFlight

variable {κ ν ε : Type}

/-- A cell has a leader; or nobody has claimed it, and a call waits for it or a loader was broken off. -/
def Attended (s : SingleFlight κ ν ε) (id : CellId) : Prop :=
  (∃ (i : Nat) (c : LoadCall κ ν ε), s.calls[i]? = some c ∧ c.stage.lead? = some id) ∨
    s.cells[id]? = some .vacant ∧
      ((∃ (i : Nat) (c : LoadCall κ ν ε), s.calls[i]? = some c ∧ c.stage = .wait id) ∨
        ∃ (i : Nat) (c : LoadCall κ ν ε) (message : String), s.calls[i]? = some c ∧
          c.stage = .ended (.panicked message))

/-- A cell stays attended when a call takes a turn, if the call does not leave it alone. -/
theorem Attended.of_turn {s t : SingleFlight κ ν ε} {id : CellId} (h : s.Attended id) {call : Nat}
    {c : LoadCall κ ν ε} {stage : CallStage ν ε} (hc : s.calls[call]? = some c)
    (hself : t.calls[call]? = some { c with stage })
    (hcalls : ∀ i, i ≠ call → t.calls[i]? = s.calls[i]?)
    (hlead : c.stage.lead? = some id → stage.lead? = some id)
    (hcell : s.cells[id]? = some .vacant → t.cells[id]? = some .vacant ∨ stage.lead? = some id)
    (hwait : c.stage = .wait id → s.cells[id]? = some .vacant → stage.lead? = some id)
    (hgoing : ∀ how, c.stage ≠ .ended how) : t.Attended id := by
  rcases h with ⟨i, d, hd, hdid⟩ | ⟨hvacant, hwaiting⟩
  · left
    by_cases hi : i = call
    · subst hi
      rw [hc] at hd
      cases hd
      exact ⟨i, _, hself, hlead hdid⟩
    · exact ⟨i, d, (hcalls i hi).trans hd, hdid⟩
  · rcases hcell hvacant with hstill | hled
    · rcases hwaiting with ⟨i, d, hd, hdid⟩ | ⟨i, d, message, hd, hend⟩
      · by_cases hi : i = call
        · subst hi
          rw [hc] at hd
          cases hd
          exact Or.inl ⟨i, _, hself, hwait hdid hvacant⟩
        · exact Or.inr ⟨hstill, Or.inl ⟨i, d, (hcalls i hi).trans hd, hdid⟩⟩
      · have hi : i ≠ call := by
          rintro rfl
          rw [hc] at hd
          cases hd
          exact hgoing _ hend
        exact Or.inr ⟨hstill, Or.inr ⟨i, d, message, (hcalls i hi).trans hd, hend⟩⟩
    · exact Or.inl ⟨call, _, hself, hled⟩

variable [DecidableEq κ]

/-- Every cell in the table is attended. -/
def Watched (s : SingleFlight κ ν ε) : Prop :=
  ∀ key id, s.inFlight.lookup key = some id → s.Attended id

namespace Watched

variable {s : SingleFlight κ ν ε} {owner : List κ} {call : Nat} {c : LoadCall κ ν ε}

/-- The table is empty at first. -/
theorem start (place : κ → Nat) (settings : LruSettings) :
    (SingleFlight.start place settings : SingleFlight κ ν ε).Watched := by
  intro key id hid
  simp [SingleFlight.start] at hid

/-- A call that stands at no cell moves on. -/
theorem move_of_no_cell (h : s.Watched) (hc : s.calls[call]? = some c)
    (hcell : c.stage.cell? = none) (hgoing : ∀ how, c.stage ≠ .ended how) (stage : CallStage ν ε) :
    (s.move call stage).Watched := by
  intro key id hid
  apply (h key id hid).of_turn hc (call_move_self hc stage) (fun i hi => call_move_of_ne hi stage)
  · intro hlead
    cases hstage : c.stage <;> simp_all [CallStage.cell?, CallStage.lead?]
  · exact Or.inl
  · intro hwait
    simp [hwait, CallStage.cell?] at hcell
  · exact hgoing

/-- A leader goes on with its cell. -/
theorem move_lead (h : s.Watched) (hc : s.calls[call]? = some c) {id : CellId}
    (hid : c.stage.lead? = some id) {stage : CallStage ν ε} (hstage : stage.lead? = some id) :
    (s.move call stage).Watched := by
  intro key other hother
  apply (h key other hother).of_turn hc (call_move_self hc stage)
    (fun i hi => call_move_of_ne hi stage)
  · intro hlead
    rwa [hstage, ← hid]
  · exact Or.inl
  · intro hwait
    simp [hwait, CallStage.lead?] at hid
  · intro how hended
    simp [hended, CallStage.lead?] at hid

/-- A leader goes on with a cell of its own that is set to something else. -/
theorem setCell_move (h : s.Watched) (hc : s.calls[call]? = some c) {id : CellId}
    (hlt : id < s.cells.length) (hid : c.stage.cell? = some id) {cell : Cell ν ε}
    {stage : CallStage ν ε} (hstage : stage.lead? = some id) :
    ((s.setCell id cell).move call stage).Watched := by
  intro key other hother
  have hc' : (s.setCell id cell).calls[call]? = some c := hc
  apply (h key other hother).of_turn hc (call_move_self hc' stage)
    (fun i hi => call_move_of_ne hi stage)
  · intro hlead
    have hsame : c.stage.cell? = some other := by
      cases hcstage : c.stage <;> simp_all [CallStage.cell?, CallStage.lead?]
    rwa [hstage, ← hid]
  · intro hvacant
    by_cases hother : other = id
    · exact Or.inr (by rw [hstage, hother])
    · refine Or.inl ?_
      change (s.setCell id cell).cells[other]? = _
      rwa [cell_of_setCell s id other cell hlt, if_neg hother]
  · intro hwait _
    rw [hwait] at hid
    rw [hstage]
    exact hid.symm
  · intro how hended
    simp [hended, CallStage.cell?] at hid

/-- A call takes the cell of its key and waits for it. -/
theorem enter (h : s.Watched) (hc : s.calls[call]? = some c) (hstage : c.stage = .enter) :
    ((s.takeCell c.key).2.move call (.wait (s.takeCell c.key).1)).Watched := by
  have hnocell : c.stage.cell? = none := by rw [hstage]; rfl
  have hgoing : ∀ how, c.stage ≠ .ended how := by simp [hstage]
  rw [takeCell]
  cases hkey : s.inFlight.lookup c.key with
  | some id => exact h.move_of_no_cell hc hnocell hgoing _
  | none =>
    intro key id hid
    replace hid : (s.inFlight.put c.key s.cells.length).lookup key = some id := hid
    have hc' : ({ s with
      cells := s.cells ++ [.vacant]
      inFlight := s.inFlight.put c.key s.cells.length } : SingleFlight κ ν ε).calls[call]? = some c := hc
    rw [Table.lookup_put] at hid
    split at hid
    · cases hid
      exact Or.inr ⟨List.getElem?_concat_length, Or.inl ⟨call, _, call_move_self hc' _, rfl⟩⟩
    · apply (h key id hid).of_turn hc (call_move_self hc' _) (fun i hi => call_move_of_ne hi _)
      · intro hlead
        simp [hstage, CallStage.lead?] at hlead
      · intro hvacant
        have hlt : id < s.cells.length := (List.getElem?_eq_some_iff.mp hvacant).1
        exact Or.inl ((List.getElem?_append_left hlt).trans hvacant)
      · intro hwait
        simp [hstage] at hwait
      · exact hgoing

/-- A call that waits for a published cell is not missed. -/
theorem join (h : s.Watched) (hc : s.calls[call]? = some c) {id : CellId} {result : Except ε ν}
    (hstage : c.stage = .wait id) (hcell : s.cells[id]? = some (.published result))
    (stage : CallStage ν ε) : (s.move call stage).Watched := by
  intro key other hother
  apply (h key other hother).of_turn hc (call_move_self hc stage)
    (fun i hi => call_move_of_ne hi stage)
  · intro hlead
    simp [hstage, CallStage.lead?] at hlead
  · exact Or.inl
  · intro hwait hvacant
    rw [hstage] at hwait
    cases hwait
    rw [hcell] at hvacant
    cases hvacant
  · simp [hstage]

/-- A loader that is broken off leaves its cell to whoever comes. -/
theorem panicked (h : s.Watched) (hc : s.calls[call]? = some c) {id : CellId}
    (hlt : id < s.cells.length) (hstage : c.stage = .load id) (message : String) :
    ((s.setCell id .vacant).move call (.ended (.panicked message))).Watched := by
  intro key other hother
  have hc' : (s.setCell id .vacant).calls[call]? = some c := hc
  by_cases hsame : other = id
  · subst hsame
    refine Or.inr ⟨?_, Or.inr ⟨call, _, message, call_move_self hc' _, rfl⟩⟩
    exact (cell_of_setCell s other other .vacant hlt).trans (if_pos rfl)
  · apply (h key other hother).of_turn hc (call_move_self hc' _) (fun i hi => call_move_of_ne hi _)
    · intro hlead
      rw [hstage] at hlead
      exact absurd (Option.some.inj hlead).symm hsame
    · intro hvacant
      refine Or.inl ?_
      exact (cell_of_setCell s id other .vacant hlt).trans ((if_neg hsame).trans hvacant)
    · intro hwait
      simp [hstage] at hwait
    · simp [hstage]

/-- Striking a cell takes it from the table, so that it need not be attended. -/
theorem leave (h : s.Watched) (ho : s.Orderly owner) (hc : s.calls[call]? = some c) {id : CellId}
    {result : Except ε ν} (hstage : c.stage = .leave id result) (stage : CallStage ν ε) :
    ((s.strike c.key id).move call stage).Watched := by
  have hown : owner[id]? = some c.key := (ho.fits hc).own id (by rw [hstage]; rfl)
  intro key other hother
  have hkept : s.inFlight.lookup key = some other ∧ other ≠ id := by
    have hleft : (s.strike c.key id).inFlight.lookup key = some other := hother
    rw [strike] at hleft
    split at hleft
    · simp only [Table.lookup_erase] at hleft
      split at hleft
      · cases hleft
      · next hne =>
        refine ⟨hleft, fun hsame => hne ?_⟩
        have hkey := ho.entered hleft
        rw [hsame, hown] at hkey
        exact (Option.some.inj hkey).symm
    · next hgone =>
      refine ⟨hleft, fun hsame => hgone ?_⟩
      have hkey := ho.entered hleft
      rw [hsame, hown] at hkey
      rwa [Option.some.inj hkey, ← hsame]
  obtain ⟨hentered, hne⟩ := hkept
  have hcalls : (s.strike c.key id).calls = s.calls := by
    rw [strike]
    split <;> rfl
  have hcells : (s.strike c.key id).cells = s.cells := by
    rw [strike]
    split <;> rfl
  have hc' : (s.strike c.key id).calls[call]? = some c := by rwa [hcalls]
  apply (h key other hentered).of_turn hc (call_move_self hc' stage)
  · intro i hi
    rw [call_move_of_ne hi, hcalls]
  · intro hlead
    rw [hstage] at hlead
    exact absurd (Option.some.inj hlead).symm hne
  · intro hvacant
    refine Or.inl ?_
    change (s.strike c.key id).cells[other]? = _
    rwa [hcells]
  · intro hwait
    simp [hstage] at hwait
  · simp [hstage]

/-- Every turn leaves the cells in the table attended. -/
theorem turn (h : s.Watched) (ho : s.Orderly owner) (hc : s.calls[call]? = some c)
    {t : SingleFlight κ ν ε} {returned : Option ν} (hturn : Turn s call c returned t) :
    t.Watched := by
  have hfits := ho.fits hc
  cases hturn with
  | hit value hstage hfound =>
    have hcache : ({ s with cache := (s.cache.get c.key).2 } : SingleFlight κ ν ε).Watched := h
    exact hcache.move_of_no_cell hc (by rw [hstage]; rfl) (by simp [hstage]) _
  | miss hstage hfound =>
    have hcache : ({ s with cache := (s.cache.get c.key).2 } : SingleFlight κ ν ε).Watched := h
    exact hcache.move_of_no_cell hc (by rw [hstage]; rfl) (by simp [hstage]) _
  | enter hstage => exact h.enter hc hstage
  | claim id hstage hcell =>
    have hown : owner[id]? = some c.key := hfits.own id (by rw [hstage]; rfl)
    exact h.setCell_move hc (ho.lt_of_owner hown) (by rw [hstage]; rfl) rfl
  | join id result hstage hcell => exact h.join hc hstage hcell _
  | found id value hstage hheld => exact h.move_lead hc (by rw [hstage]; rfl) rfl
  | absent id hstage hheld => exact h.move_lead hc (by rw [hstage]; rfl) rfl
  | value id value hstage => exact h.move_lead hc (by rw [hstage]; rfl) rfl
  | failed id e hstage => exact h.move_lead hc (by rw [hstage]; rfl) rfl
  | panicked id message hstage =>
    have hown : owner[id]? = some c.key := hfits.own id (by rw [hstage]; rfl)
    exact h.panicked hc (ho.lt_of_owner hown) hstage message
  | keep id value hstage =>
    have hcache : ({ s with cache := (s.cache.putIfAbsent c.key value).2 } :
      SingleFlight κ ν ε).Watched := h
    exact hcache.move_lead hc (by rw [hstage]; rfl) rfl
  | publish id result hstage =>
    have hown : owner[id]? = some c.key := hfits.own id (by rw [hstage]; rfl)
    exact h.setCell_move hc (ho.lt_of_owner hown) (by rw [hstage]; rfl) rfl
  | leave id result hstage => exact h.leave ho hc hstage _

/-- Every event leaves the cells in the table attended. -/
theorem step (h : s.Watched) (ho : s.Orderly owner) {t : SingleFlight κ ν ε}
    {event : LoadEvent κ ν ε} (hstep : s.step? event = some t) : t.Watched := by
  rcases step_cases hstep with ⟨key, -, rfl⟩ | ⟨call, c, _, hc, hturn, -⟩ | ⟨command, -, rfl⟩
  · intro other id hid
    rcases h other id hid with ⟨i, d, hd, hlead⟩ | ⟨hvacant, ⟨i, d, hd, hwait⟩ | ⟨i, d, m, hd, hend⟩⟩
    · exact Or.inl ⟨i, d, call_begin hd key, hlead⟩
    · exact Or.inr ⟨hvacant, Or.inl ⟨i, d, call_begin hd key, hwait⟩⟩
    · exact Or.inr ⟨hvacant, Or.inr ⟨i, d, m, call_begin hd key, hend⟩⟩
  · exact h.turn ho hc hturn
  · exact h

/-- When all calls have ended and no loader was broken off, the table is empty. -/
theorem inFlight_eq_nil (h : s.Watched)
    (hended : ∀ i, i < s.calls.length → ∃ how, s.endOf? i = some how)
    (hunbroken : ∀ i message, s.endOf? i ≠ some (.panicked message)) : s.inFlight = [] := by
  have hstage : ∀ {i : Nat} {d : LoadCall κ ν ε}, s.calls[i]? = some d →
      ∃ how, d.stage = .ended how ∧ s.endOf? i = some how := by
    intro i d hd
    obtain ⟨how, hhow⟩ := hended i (List.getElem?_eq_some_iff.mp hd).1
    refine ⟨how, ?_, hhow⟩
    rw [endOf?, hd] at hhow
    split at hhow
    · next heq =>
      cases heq
      cases hhow
      rfl
    · cases hhow
  cases hentries : s.inFlight with
  | nil => rfl
  | cons entry rest =>
    exfalso
    obtain ⟨key, id⟩ := entry
    have hid : s.inFlight.lookup key = some id := by rw [hentries, List.lookup_cons_self]
    rcases h key id hid with ⟨i, d, hd, hlead⟩ | ⟨-, ⟨i, d, hd, hwait⟩ | ⟨i, d, message, hd, hend⟩⟩
    · obtain ⟨how, hstop, -⟩ := hstage hd
      simp [hstop, CallStage.lead?] at hlead
    · obtain ⟨how, hstop, -⟩ := hstage hd
      simp [hstop] at hwait
    · obtain ⟨how, hstop, hhow⟩ := hstage hd
      rw [hend] at hstop
      cases hstop
      exact hunbroken i message hhow

end Watched

end EvidenceFlow.SingleFlight
