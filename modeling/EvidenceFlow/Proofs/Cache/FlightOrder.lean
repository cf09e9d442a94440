import EvidenceFlow.Proofs.Cache.LruValues
import EvidenceFlow.Cache.SingleFlight

/-!
# One leader for each key

Of all calls that stand at the cell of a key at most one has claimed it, and as long as the cell is
unpublished it stays in the table of running loads. So nobody can enter a second cell for the key, and
at most one loader of the key runs. Who has published a cell strikes it before ending, so that a cell
which stays behind in the table is one whose loader was broken off.
-/

namespace EvidenceFlow

variable {κ ν ε : Type}

/-! ## Where calls stand -/

namespace CallStage

/-- The cell that a call stands at. -/
def cell? : CallStage ν ε → Option CellId
  | .wait id | .peek id | .load id | .keep id _ | .publish id _ | .leave id _ => some id
  | .lookUp | .enter | .ended _ => none

/-- The cell that a call has claimed and has not published. -/
def claim? : CallStage ν ε → Option CellId
  | .peek id | .load id | .keep id _ | .publish id _ => some id
  | .lookUp | .enter | .wait _ | .leave _ _ | .ended _ => none

/-- The cell that a call has claimed and has not struck from the table. -/
def lead? : CallStage ν ε → Option CellId
  | .peek id | .load id | .keep id _ | .publish id _ | .leave id _ => some id
  | .lookUp | .enter | .wait _ | .ended _ => none

/-- Who has claimed a cell stands at it. -/
theorem cell?_of_claim? {stage : CallStage ν ε} {id : CellId} (h : stage.claim? = some id) :
    stage.cell? = some id := by
  cases stage <;> simp_all [claim?, cell?]

end CallStage

namespace SingleFlight

/-! ## Calls and cells -/

/-- One call stands where it has been moved, and all others where they stood. -/
theorem call_of_move {s : SingleFlight κ ν ε} {call : Nat} {c : LoadCall κ ν ε}
    (hc : s.calls[call]? = some c) {stage : CallStage ν ε} {i : Nat} {d : LoadCall κ ν ε}
    (hd : (s.move call stage).calls[i]? = some d) :
    (i = call ∧ d = { c with stage }) ∨ (i ≠ call ∧ s.calls[i]? = some d) := by
  simp only [move, List.getElem?_modify] at hd
  by_cases hi : i = call
  · subst hi
    rw [hc] at hd
    exact Or.inl ⟨rfl, by simpa using hd.symm⟩
  · exact Or.inr ⟨hi, by simpa [Ne.symm hi] using hd⟩

/-- The call that has been moved. -/
theorem call_move_self {s : SingleFlight κ ν ε} {call : Nat} {c : LoadCall κ ν ε}
    (hc : s.calls[call]? = some c) (stage : CallStage ν ε) :
    (s.move call stage).calls[call]? = some { c with stage } := by
  simp [move, hc]

/-- A call that has not been moved. -/
theorem call_move_of_ne {s : SingleFlight κ ν ε} {call i : Nat} (hi : i ≠ call)
    (stage : CallStage ν ε) : (s.move call stage).calls[i]? = s.calls[i]? := by
  simp [move, Ne.symm hi]

/-- A call was there already, or it is the one that begins. -/
theorem call_of_begin {s : SingleFlight κ ν ε} {key : κ} {i : Nat} {d : LoadCall κ ν ε}
    (hd : (s.calls ++ [{ key := key }])[i]? = some d) :
    s.calls[i]? = some d ∨ d = { key := key } := by
  by_cases hi : i < s.calls.length
  · exact Or.inl (by rwa [List.getElem?_append_left hi] at hd)
  · rw [List.getElem?_append_right (by omega)] at hd
    exact Or.inr (by simpa using List.mem_of_getElem? hd)

/-- A call that is there stays in its place when another one begins. -/
theorem call_begin {s : SingleFlight κ ν ε} {i : Nat} {d : LoadCall κ ν ε}
    (hd : s.calls[i]? = some d) (key : κ) : (s.calls ++ [{ key := key }])[i]? = some d :=
  (List.getElem?_append_left (List.getElem?_eq_some_iff.mp hd).1).trans hd

/-- One cell is what it has been set to, and all others what they were. -/
theorem cell_of_setCell (s : SingleFlight κ ν ε) (id other : CellId) (cell : Cell ν ε)
    (hid : id < s.cells.length) :
    (s.setCell id cell).cells[other]? = if other = id then some cell else s.cells[other]? := by
  simp only [setCell, List.getElem?_set, hid, if_true]
  split
  · next h => rw [if_pos h.symm]
  · next h => rw [if_neg (Ne.symm h)]

/-! ## Turns -/

variable [DecidableEq κ]

/-- What the turns of a call lead to, stage by stage, and the value that its loader returns in this
turn, if it does. -/
inductive Turn (s : SingleFlight κ ν ε) (call : Nat) (c : LoadCall κ ν ε) :
    Option ν → SingleFlight κ ν ε → Prop where
  /-- The key is found. -/
  | hit (value : ν) (hstage : c.stage = .lookUp) (hfound : (s.cache.get c.key).1 = some value) :
      Turn s call c none
        ({ s with cache := (s.cache.get c.key).2 }.move call (.ended (.value value)))
  /-- The key is not found. -/
  | miss (hstage : c.stage = .lookUp) (hfound : (s.cache.get c.key).1 = none) :
      Turn s call c none ({ s with cache := (s.cache.get c.key).2 }.move call .enter)
  /-- The call takes the cell of its key. -/
  | enter (hstage : c.stage = .enter) :
      Turn s call c none ((s.takeCell c.key).2.move call (.wait (s.takeCell c.key).1))
  /-- The call claims the cell. -/
  | claim (id : CellId) (hstage : c.stage = .wait id) (hcell : s.cells[id]? = some .vacant) :
      Turn s call c none ((s.setCell id .claimed).move call (.peek id))
  /-- The call ends with what another one has published. -/
  | join (id : CellId) (result : Except ε ν) (hstage : c.stage = .wait id)
      (hcell : s.cells[id]? = some (.published result)) :
      Turn s call c none (s.move call (.ended (.ofResult result)))
  /-- Another call has kept a value meanwhile. -/
  | found (id : CellId) (value : ν) (hstage : c.stage = .peek id)
      (hheld : s.cache.peek? c.key = some value) :
      Turn s call c none (s.move call (.publish id (.ok value)))
  /-- The loader begins. -/
  | absent (id : CellId) (hstage : c.stage = .peek id) (hheld : s.cache.peek? c.key = none) :
      Turn s call c none (s.move call (.load id))
  /-- The loader ends with a value. -/
  | value (id : CellId) (value : ν) (hstage : c.stage = .load id) :
      Turn s call c (some value) (s.move call (.keep id value))
  /-- The loader ends with a fault. -/
  | failed (id : CellId) (e : ε) (hstage : c.stage = .load id) :
      Turn s call c none (s.move call (.publish id (.error e)))
  /-- The loader is broken off. -/
  | panicked (id : CellId) (message : String) (hstage : c.stage = .load id) :
      Turn s call c none ((s.setCell id .vacant).move call (.ended (.panicked message)))
  /-- The value is kept. -/
  | keep (id : CellId) (value : ν) (hstage : c.stage = .keep id value) :
      Turn s call c none ({ s with cache := (s.cache.putIfAbsent c.key value).2 }.move call
        (.publish id (.ok (s.cache.putIfAbsent c.key value).1)))
  /-- The cell is published. -/
  | publish (id : CellId) (result : Except ε ν) (hstage : c.stage = .publish id result) :
      Turn s call c none ((s.setCell id (.published result)).move call (.leave id result))
  /-- The cell is struck from the table. -/
  | leave (id : CellId) (result : Except ε ν) (hstage : c.stage = .leave id result) :
      Turn s call c none ((s.strike c.key id).move call (.ended (.ofResult result)))

/-- A step that a call takes by itself is a turn. -/
theorem turn_of_advance? {s t : SingleFlight κ ν ε} {call : Nat} {c : LoadCall κ ν ε}
    (h : s.advance? call c = some t) : Turn s call c none t := by
  unfold advance? at h
  split at h
  · next hstage =>
    split at h
    · next value cache hget =>
      cases h
      have hturn : Turn s call c none _ := .hit value hstage (congrArg Prod.fst hget)
      rwa [congrArg Prod.snd hget] at hturn
    · next cache hget =>
      cases h
      have hturn : Turn s call c none _ := .miss hstage (congrArg Prod.fst hget)
      rwa [congrArg Prod.snd hget] at hturn
  · next hstage => cases h; exact .enter hstage
  · next id hstage =>
    split at h
    · next hcell => cases h; exact .claim id hstage hcell
    · next result hcell => cases h; exact .join id result hstage hcell
    · cases h
    · cases h
  · next id hstage =>
    split at h
    · next value hheld => cases h; exact .found id value hstage hheld
    · next hheld => cases h; exact .absent id hstage hheld
  · next id value hstage => cases h; exact .keep id value hstage
  · next id result hstage => cases h; exact .publish id result hstage
  · next id result hstage => cases h; exact .leave id result hstage
  · cases h
  · cases h

/-- The value with which an event ends the loader of a key, if it does. -/
def successOf? (s : SingleFlight κ ν ε) (key : κ) : LoadEvent κ ν ε → Option ν
  | .loaded call (.value v) => if s.isLoading key call then some v else none
  | _ => none

/-- The end of a loader is a turn of its call. -/
theorem turn_of_loaded? {s t : SingleFlight κ ν ε} {call : Nat} {c : LoadCall κ ν ε}
    {how : LoadEnd ν ε} (hc : s.calls[call]? = some c) (h : s.loaded? call c how = some t) :
    ∃ returned, Turn s call c returned t ∧
      ∀ key, s.successOf? key (.loaded call how) = if c.key = key then returned else none := by
  obtain ⟨own, stage⟩ := c
  unfold loaded? at h
  split at h
  · next id value hstage =>
    cases h
    refine ⟨some value, .value id value hstage, fun key => ?_⟩
    obtain rfl : stage = .load id := hstage
    simp [successOf?, isLoading, hc]
  · next id e hstage =>
    cases h
    exact ⟨none, .failed id e hstage, fun key => by simp [successOf?]⟩
  · next id message hstage =>
    cases h
    exact ⟨none, .panicked id message hstage, fun key => by simp [successOf?]⟩
  · cases h

/-- Each event lets a call begin or take a turn, or is a use of the store. -/
theorem step_cases {s t : SingleFlight κ ν ε} {event : LoadEvent κ ν ε}
    (h : s.step? event = some t) :
    (∃ key, event = .begin key ∧ t = { s with calls := s.calls ++ [{ key := key }] }) ∨
      (∃ call c returned, s.calls[call]? = some c ∧ Turn s call c returned t ∧
        ∀ key, s.successOf? key event = if c.key = key then returned else none) ∨
      ∃ command, event = .use command ∧ t = { s with cache := (s.cache.answer command).2 } := by
  cases event with
  | begin key =>
    cases h
    exact Or.inl ⟨key, rfl, rfl⟩
  | advance call =>
    obtain ⟨c, hc, h⟩ := Option.bind_eq_some_iff.mp h
    exact Or.inr (Or.inl ⟨call, c, none, hc, turn_of_advance? h, fun key => by simp [successOf?]⟩)
  | loaded call how =>
    obtain ⟨c, hc, h⟩ := Option.bind_eq_some_iff.mp h
    obtain ⟨returned, hturn, hsuccess⟩ := turn_of_loaded? hc h
    exact Or.inr (Or.inl ⟨call, c, returned, hc, hturn, hsuccess⟩)
  | use command =>
    cases h
    exact Or.inr (Or.inr ⟨command, rfl, rfl⟩)

/-! ## The order of things -/

/-- A call stands at a cell of its own key; one that it has claimed is unpublished and in the table, and
one that it is about to strike from the table holds the result. -/
structure Fits (s : SingleFlight κ ν ε) (owner : List κ) (c : LoadCall κ ν ε) : Prop where
  /-- The cell is one of the key. -/
  own : ∀ id, c.stage.cell? = some id → owner[id]? = some c.key
  /-- The cell is claimed and in the table. -/
  claimed : ∀ id, c.stage.claim? = some id →
    s.cells[id]? = some .claimed ∧ s.inFlight.lookup c.key = some id
  /-- The cell holds the result. -/
  left : ∀ id result, c.stage = .leave id result → s.cells[id]? = some (.published result)

/-- What holds of cells, calls and the table of running loads; `owner` says for which key each cell was
made. -/
structure Orderly (s : SingleFlight κ ν ε) (owner : List κ) : Prop where
  /-- Each cell was made for a key. -/
  owned : owner.length = s.cells.length
  /-- The table leads to cells of the key. -/
  entered : ∀ {key : κ} {id : CellId}, s.inFlight.lookup key = some id → owner[id]? = some key
  /-- A cell that nobody has claimed is in the table. -/
  unclaimed : ∀ {key : κ} {id : CellId}, owner[id]? = some key → s.cells[id]? = some .vacant →
    s.inFlight.lookup key = some id
  /-- The calls fit the cells and the table. -/
  fits : ∀ {i : Nat} {c : LoadCall κ ν ε}, s.calls[i]? = some c → s.Fits owner c
  /-- At most one call has claimed a cell. -/
  alone : ∀ {i j : Nat} {c d : LoadCall κ ν ε} {id : CellId}, s.calls[i]? = some c →
    s.calls[j]? = some d → c.stage.claim? = some id → d.stage.claim? = some id → i = j

namespace Orderly

variable {s : SingleFlight κ ν ε} {owner : List κ} {call : Nat} {c : LoadCall κ ν ε}

/-- Cells that were made for a key are there. -/
theorem lt_of_owner (h : s.Orderly owner) {id : CellId} {key : κ} (hid : owner[id]? = some key) :
    id < s.cells.length := by
  rw [← h.owned]
  exact (List.getElem?_eq_some_iff.mp hid).1

/-- Nothing has happened yet. -/
theorem start (place : κ → Nat) (settings : LruSettings) :
    (SingleFlight.start place settings : SingleFlight κ ν ε).Orderly [] := by
  refine ⟨rfl, ?_, ?_, ?_, ?_⟩ <;> intros <;> simp_all [SingleFlight.start]

/-- The store does not matter. -/
theorem of_cache (h : s.Orderly owner) (cache : Lru κ ν) : { s with cache }.Orderly owner :=
  ⟨h.owned, h.entered, h.unclaimed, fun hc => ⟨(h.fits hc).own, (h.fits hc).claimed, (h.fits hc).left⟩,
    h.alone⟩

/-- A call that begins stands at no cell. -/
theorem begin (h : s.Orderly owner) (key : κ) :
    ({ s with calls := s.calls ++ [{ key := key }] } : SingleFlight κ ν ε).Orderly owner := by
  refine ⟨h.owned, h.entered, h.unclaimed, ?_, ?_⟩
  · intro i d hd
    rcases call_of_begin hd with hd | rfl
    · exact ⟨(h.fits hd).own, (h.fits hd).claimed, (h.fits hd).left⟩
    · constructor <;> intros <;> simp_all [CallStage.cell?, CallStage.claim?]
  · intro i j d e id hd he hdid heid
    rcases call_of_begin hd with hd | rfl
    · rcases call_of_begin he with he | rfl
      · exact h.alone hd he hdid heid
      · simp [CallStage.claim?] at heid
    · simp [CallStage.claim?] at hdid

/-- A call that moves on without a change to cells or table must fit them, and claims nothing new. -/
theorem move (h : s.Orderly owner) (hc : s.calls[call]? = some c) {stage : CallStage ν ε}
    (hfits : s.Fits owner { c with stage })
    (hclaim : ∀ id, stage.claim? = some id → c.stage.claim? = some id) :
    (s.move call stage).Orderly owner := by
  have hback : ∀ {i : Nat} {d : LoadCall κ ν ε} {id : CellId},
      (s.move call stage).calls[i]? = some d → d.stage.claim? = some id →
        ∃ e, s.calls[i]? = some e ∧ e.stage.claim? = some id := by
    intro i d id hd hid
    rcases call_of_move hc hd with ⟨rfl, rfl⟩ | ⟨-, hd⟩
    · exact ⟨c, hc, hclaim id hid⟩
    · exact ⟨d, hd, hid⟩
  refine ⟨h.owned, h.entered, h.unclaimed, ?_, ?_⟩
  · intro i d hd
    rcases call_of_move hc hd with ⟨-, rfl⟩ | ⟨-, hd⟩
    · exact ⟨hfits.own, hfits.claimed, hfits.left⟩
    · exact ⟨(h.fits hd).own, (h.fits hd).claimed, (h.fits hd).left⟩
  · intro i j d e id hd he hdid heid
    obtain ⟨d', hd', hdid'⟩ := hback hd hdid
    obtain ⟨e', he', heid'⟩ := hback he heid
    exact h.alone hd' he' hdid' heid'

/-- A call that has ended fits everything. -/
theorem fits_ended (how : LoadEnd ν ε) : s.Fits owner { c with stage := .ended how } := by
  constructor <;> intros <;> simp_all [CallStage.cell?, CallStage.claim?]

/-- A call ends. -/
theorem move_ended (h : s.Orderly owner) (hc : s.calls[call]? = some c) (how : LoadEnd ν ε) :
    (s.move call (.ended how)).Orderly owner := by
  apply h.move hc (fits_ended how)
  intro id hid
  simp [CallStage.claim?] at hid

/-- A leader that has claimed a cell goes on with it. -/
theorem move_claimed (h : s.Orderly owner) (hc : s.calls[call]? = some c) {id : CellId}
    (hid : c.stage.claim? = some id) {stage : CallStage ν ε} (hstage : stage.claim? = some id) :
    (s.move call stage).Orderly owner := by
  have hfits := h.fits hc
  have hown := hfits.own id (CallStage.cell?_of_claim? hid)
  apply h.move hc
  · refine ⟨?_, ?_, ?_⟩
    · intro other hother
      rw [CallStage.cell?_of_claim? hstage] at hother
      cases hother
      exact hown
    · intro other hother
      rw [show stage.claim? = some other from hother] at hstage
      cases hstage
      exact hfits.claimed id hid
    · rintro other result rfl
      simp [CallStage.claim?] at hstage
  · intro other hother
    rwa [hstage, ← hid] at hother

/-- One cell is set and the call that stands at it moves on. No other call may have claimed the cell,
and the cell must not have been published. -/
theorem setCell_move (h : s.Orderly owner) (hc : s.calls[call]? = some c) {id : CellId}
    (hid : owner[id]? = some c.key) {cell : Cell ν ε} {stage : CallStage ν ε}
    (hothers : ∀ i d, i ≠ call → s.calls[i]? = some d → d.stage.claim? ≠ some id)
    (hunpublished : ∀ result, s.cells[id]? ≠ some (.published result))
    (hfits : (s.setCell id cell).Fits owner { c with stage })
    (hclaim : ∀ other, stage.claim? = some other → other = id)
    (hvacant : cell = .vacant → s.inFlight.lookup c.key = some id) :
    ((s.setCell id cell).move call stage).Orderly owner := by
  have hlt := h.lt_of_owner hid
  have hcell := fun other => cell_of_setCell s id other cell hlt
  have hc' : (s.setCell id cell).calls[call]? = some c := hc
  refine ⟨?_, h.entered, ?_, ?_, ?_⟩
  · simpa [SingleFlight.setCell, SingleFlight.move] using h.owned
  · intro key other hkey hother
    replace hother : (s.setCell id cell).cells[other]? = some .vacant := hother
    rw [hcell] at hother
    split at hother
    · next heq =>
      subst heq
      have hsame : key = c.key := by
        rw [hid] at hkey
        exact (Option.some.inj hkey).symm
      rw [hsame]
      exact hvacant (Option.some.inj hother)
    · exact h.unclaimed hkey hother
  · intro i d hd
    rcases call_of_move hc' hd with ⟨-, rfl⟩ | ⟨hi, hd'⟩
    · exact ⟨hfits.own, hfits.claimed, hfits.left⟩
    · have hold := h.fits (c := d) hd'
      refine ⟨hold.own, ?_, ?_⟩
      · intro other hother
        have hne : other ≠ id := by
          rintro rfl
          exact hothers i d hi hd' hother
        change (s.setCell id cell).cells[other]? = _ ∧ _
        rw [hcell, if_neg hne]
        exact hold.claimed other hother
      · intro other result hstage
        have hne : other ≠ id := by
          rintro rfl
          exact hunpublished result (hold.left other result hstage)
        change (s.setCell id cell).cells[other]? = _
        rw [hcell, if_neg hne]
        exact hold.left other result hstage
  · intro i j d e other hd he hdid heid
    rcases call_of_move hc' hd with ⟨rfl, rfl⟩ | ⟨hi, hd'⟩
    · rcases call_of_move hc' he with ⟨rfl, -⟩ | ⟨hj, he'⟩
      · rfl
      · obtain rfl := hclaim other hdid
        exact absurd heid (hothers j e hj he')
    · rcases call_of_move hc' he with ⟨rfl, rfl⟩ | ⟨-, he'⟩
      · obtain rfl := hclaim other heid
        exact absurd hdid (hothers i d hi hd')
      · exact h.alone hd' he' hdid heid

/-- Whoever takes the cell of a key finds it in the table afterwards, and it was made for the key. -/
theorem takeCell (h : s.Orderly owner) (key : κ) :
    ∃ owner' : List κ, owner <+: owner' ∧ (s.takeCell key).2.Orderly owner' ∧
      owner'[(s.takeCell key).1]? = some key := by
  rw [SingleFlight.takeCell]
  cases hkey : s.inFlight.lookup key with
  | some id => exact ⟨owner, List.prefix_rfl, h, h.entered hkey⟩
  | none =>
    have howned := h.owned
    have hold : ∀ {id : CellId} {other : κ}, owner[id]? = some other →
        (owner ++ [key])[id]? = some other := fun hid =>
      (List.getElem?_append_left (List.getElem?_eq_some_iff.mp hid).1).trans hid
    have hcells : ∀ {id : CellId} {cell : Cell ν ε}, s.cells[id]? = some cell →
        (s.cells ++ [.vacant])[id]? = some cell := fun hid =>
      (List.getElem?_append_left (List.getElem?_eq_some_iff.mp hid).1).trans hid
    have hlookup : ∀ {other : κ} {id : CellId}, s.inFlight.lookup other = some id →
        (s.inFlight.put key s.cells.length).lookup other = some id := by
      intro other id hid
      rw [Table.lookup_put, if_neg, hid]
      rintro rfl
      rw [hkey] at hid
      cases hid
    have hlast : (owner ++ [key])[s.cells.length]? = some key := by
      rw [← howned]
      exact List.getElem?_concat_length
    refine ⟨owner ++ [key], List.prefix_append _ _, ⟨?_, ?_, ?_, ?_, ?_⟩, hlast⟩
    · simp [howned]
    · intro other id hid
      rw [Table.lookup_put] at hid
      split at hid
      · next hsame =>
        cases hid
        rw [hsame]
        exact hlast
      · exact hold (h.entered hid)
    · intro other id hother hid
      by_cases hlt : id < s.cells.length
      · rw [List.getElem?_append_left hlt] at hid
        rw [List.getElem?_append_left (by rw [howned]; exact hlt)] at hother
        exact hlookup (h.unclaimed hother hid)
      · have hle : id < (s.cells ++ [Cell.vacant]).length := (List.getElem?_eq_some_iff.mp hid).1
        rw [List.length_append, List.length_singleton] at hle
        obtain rfl : id = s.cells.length := Nat.le_antisymm (Nat.lt_succ_iff.mp hle) (Nat.not_lt.mp hlt)
        rw [hlast] at hother
        rw [Table.lookup_put, if_pos (Option.some.inj hother).symm]
    · intro i c hc
      have hfits := h.fits hc
      refine ⟨fun id hid => hold (hfits.own id hid), ?_, ?_⟩
      · intro id hid
        obtain ⟨hclaimed, hentered⟩ := hfits.claimed id hid
        exact ⟨hcells hclaimed, hlookup hentered⟩
      · exact fun id result hstage => hcells (hfits.left id result hstage)
    · exact h.alone

/-- Striking a published cell from the table takes it from no leader. -/
theorem strike (h : s.Orderly owner) (key : κ) {id : CellId} {result : Except ε ν}
    (hpublished : s.cells[id]? = some (.published result)) : (s.strike key id).Orderly owner := by
  rw [SingleFlight.strike]
  split
  · next hkey =>
    have hlookup : ∀ {other : κ} {cell : CellId}, cell ≠ id → s.inFlight.lookup other = some cell →
        (s.inFlight.erase key).lookup other = some cell := by
      intro other cell hne hcell
      rw [Table.lookup_erase, if_neg, hcell]
      rintro rfl
      rw [hkey] at hcell
      exact hne (Option.some.inj hcell).symm
    refine ⟨h.owned, ?_, ?_, ?_, h.alone⟩
    · intro other cell hcell
      rw [Table.lookup_erase] at hcell
      split at hcell
      · cases hcell
      · exact h.entered hcell
    · intro other cell hother hcell
      refine hlookup ?_ (h.unclaimed hother hcell)
      rintro rfl
      rw [hpublished] at hcell
      cases hcell
    · intro i c hc
      have hfits := h.fits hc
      refine ⟨hfits.own, ?_, hfits.left⟩
      intro cell hcell
      obtain ⟨hclaimed, hentered⟩ := hfits.claimed cell hcell
      refine ⟨hclaimed, hlookup ?_ hentered⟩
      rintro rfl
      rw [hpublished] at hclaimed
      cases hclaimed
  · exact h

/-- Nobody but the leader has claimed the cell that the leader has claimed. -/
theorem claim?_ne_of_ne (h : s.Orderly owner) (hc : s.calls[call]? = some c) {id : CellId}
    (hid : c.stage.claim? = some id) {i : Nat} {d : LoadCall κ ν ε} (hi : i ≠ call)
    (hd : s.calls[i]? = some d) : d.stage.claim? ≠ some id :=
  fun hdid => hi (h.alone hd hc hdid hid)

/-- Nobody has claimed a cell that is not marked so. -/
theorem claim?_ne_of_cell (h : s.Orderly owner) {id : CellId} (hcell : s.cells[id]? ≠ some .claimed)
    {i : Nat} {d : LoadCall κ ν ε} (hd : s.calls[i]? = some d) : d.stage.claim? ≠ some id :=
  fun hdid => hcell ((h.fits hd).claimed id hdid).1

/-- Every turn keeps the order; no cell changes its key. -/
theorem turn (h : s.Orderly owner) (hc : s.calls[call]? = some c) {t : SingleFlight κ ν ε}
    {returned : Option ν} (hturn : Turn s call c returned t) :
    ∃ owner' : List κ, owner <+: owner' ∧ t.Orderly owner' := by
  have hfits := h.fits hc
  cases hturn with
  | hit value hstage hfound =>
    exact ⟨owner, List.prefix_rfl, (h.of_cache (s.cache.get c.key).2).move_ended hc _⟩
  | miss hstage hfound =>
    refine ⟨owner, List.prefix_rfl, (h.of_cache (s.cache.get c.key).2).move hc ?_ ?_⟩
    · constructor <;> intros <;> simp_all [CallStage.cell?, CallStage.claim?]
    · intro id hid
      simp [CallStage.claim?] at hid
  | enter hstage =>
    obtain ⟨owner', hgrown, horderly, hid⟩ := h.takeCell c.key
    have hc' : (s.takeCell c.key).2.calls[call]? = some c := by
      rw [SingleFlight.takeCell]
      split <;> exact hc
    refine ⟨owner', hgrown, horderly.move hc' ?_ ?_⟩
    · refine ⟨?_, ?_, ?_⟩
      · intro id heq
        cases heq
        exact hid
      · intro id heq
        simp [CallStage.claim?] at heq
      · intro id result heq
        simp at heq
    · intro id heq
      simp [CallStage.claim?] at heq
  | claim id hstage hcell =>
    have hid : owner[id]? = some c.key := hfits.own id (by rw [hstage]; rfl)
    have hset := cell_of_setCell s id id .claimed (h.lt_of_owner hid)
    rw [if_pos rfl] at hset
    refine ⟨owner, List.prefix_rfl, h.setCell_move hc hid ?_ ?_ ⟨?_, ?_, ?_⟩ ?_ ?_⟩
    · intro i d hi hd
      exact h.claim?_ne_of_cell (by simp [hcell]) hd
    · intro result
      simp [hcell]
    · intro other heq
      cases heq
      exact hid
    · intro other heq
      cases heq
      exact ⟨hset, h.unclaimed hid hcell⟩
    · intro other result heq
      cases heq
    · intro other heq
      exact (Option.some.inj heq).symm
    · intro heq
      cases heq
  | join id result hstage hcell => exact ⟨owner, List.prefix_rfl, h.move_ended hc _⟩
  | found id value hstage hheld =>
    have hid : c.stage.claim? = some id := by rw [hstage]; rfl
    exact ⟨owner, List.prefix_rfl, h.move_claimed hc hid rfl⟩
  | absent id hstage hheld =>
    have hid : c.stage.claim? = some id := by rw [hstage]; rfl
    exact ⟨owner, List.prefix_rfl, h.move_claimed hc hid rfl⟩
  | value id value hstage =>
    have hid : c.stage.claim? = some id := by rw [hstage]; rfl
    exact ⟨owner, List.prefix_rfl, h.move_claimed hc hid rfl⟩
  | failed id e hstage =>
    have hid : c.stage.claim? = some id := by rw [hstage]; rfl
    exact ⟨owner, List.prefix_rfl, h.move_claimed hc hid rfl⟩
  | panicked id message hstage =>
    have hid : c.stage.claim? = some id := by rw [hstage]; rfl
    obtain ⟨hclaimed, hentered⟩ := hfits.claimed id hid
    refine ⟨owner, List.prefix_rfl, h.setCell_move hc (h.entered hentered) ?_ ?_ (fits_ended _) ?_ ?_⟩
    · intro i d hi hd
      exact h.claim?_ne_of_ne hc hid hi hd
    · intro result
      simp [hclaimed]
    · intro other heq
      simp [CallStage.claim?] at heq
    · intro _
      exact hentered
  | keep id value hstage =>
    have hid : c.stage.claim? = some id := by rw [hstage]; rfl
    have hkept := h.of_cache (s.cache.putIfAbsent c.key value).2
    exact ⟨owner, List.prefix_rfl, hkept.move_claimed hc hid rfl⟩
  | publish id result hstage =>
    have hid : c.stage.claim? = some id := by rw [hstage]; rfl
    obtain ⟨hclaimed, hentered⟩ := hfits.claimed id hid
    have howner := h.entered hentered
    have hset := cell_of_setCell s id id (.published result) (h.lt_of_owner howner)
    rw [if_pos rfl] at hset
    refine ⟨owner, List.prefix_rfl, h.setCell_move hc howner ?_ ?_ ⟨?_, ?_, ?_⟩ ?_ ?_⟩
    · intro i d hi hd
      exact h.claim?_ne_of_ne hc hid hi hd
    · intro other
      simp [hclaimed]
    · intro other heq
      cases heq
      exact howner
    · intro other heq
      simp [CallStage.claim?] at heq
    · intro other result' heq
      cases heq
      exact hset
    · intro other heq
      simp [CallStage.claim?] at heq
    · intro heq
      cases heq
  | leave id result hstage =>
    have hpublished := hfits.left id result hstage
    have hc' : (s.strike c.key id).calls[call]? = some c := by
      rw [SingleFlight.strike]
      split <;> exact hc
    exact ⟨owner, List.prefix_rfl, (h.strike c.key hpublished).move_ended hc' _⟩

/-- Every event keeps the order. -/
theorem step (h : s.Orderly owner) {t : SingleFlight κ ν ε} {event : LoadEvent κ ν ε}
    (hstep : s.step? event = some t) : ∃ owner' : List κ, owner <+: owner' ∧ t.Orderly owner' := by
  rcases step_cases hstep with ⟨key, -, rfl⟩ | ⟨call, c, _, hc, hturn, -⟩ | ⟨command, -, rfl⟩
  · exact ⟨owner, List.prefix_rfl, h.begin key⟩
  · exact h.turn hc hturn
  · exact ⟨owner, List.prefix_rfl, h.of_cache _⟩

/-- Two calls that have claimed a cell of one key are one call. -/
theorem claim_unique (h : s.Orderly owner) {i j : Nat} {c d : LoadCall κ ν ε}
    (hc : s.calls[i]? = some c) (hd : s.calls[j]? = some d) (hkey : c.key = d.key) {a b : CellId}
    (ha : c.stage.claim? = some a) (hb : d.stage.claim? = some b) : i = j := by
  have hca := ((h.fits hc).claimed a ha).2
  have hdb := ((h.fits hd).claimed b hb).2
  rw [hkey, hdb] at hca
  cases hca
  exact h.alone hc hd ha hb

/-- At most one loader of a key runs. -/
theorem isLoading_unique (h : s.Orderly owner) {key : κ} {i j : Nat} (hi : s.isLoading key i)
    (hj : s.isLoading key j) : i = j := by
  have hcases : ∀ {i : Nat}, s.isLoading key i →
      ∃ c id, s.calls[i]? = some c ∧ c.key = key ∧ c.stage.claim? = some id := by
    intro i hi
    unfold isLoading at hi
    split at hi
    · next other id hc => exact ⟨_, id, hc, of_decide_eq_true hi, rfl⟩
    · cases hi
  obtain ⟨c, a, hc, hckey, ha⟩ := hcases hi
  obtain ⟨d, b, hd, hdkey, hb⟩ := hcases hj
  exact h.claim_unique hc hd (hckey.trans hdkey.symm) ha hb

end Orderly

end SingleFlight

end EvidenceFlow
