import EvidenceFlow.Cache.SingleFlight

/-!
# Calls that nobody comes between

The turns of the call that came last, while no other call takes a turn and nobody uses the store. If its key is
not there and nobody has claimed the cell that it takes, it claims the cell and runs its loader; when the loader
has ended, the call goes on to its end.
-/

namespace EvidenceFlow.SingleFlight

variable {κ ν ε : Type}

/-! ## The call that came last -/

/-- One more call, which stands so. -/
def calling (s : SingleFlight κ ν ε) (key : κ) (stage : CallStage ν ε) : SingleFlight κ ν ε :=
  { s with calls := s.calls ++ [{ key, stage }] }

/-- A stage of the newest call takes the place of the one before. -/
theorem move_calling (s : SingleFlight κ ν ε) (key : κ) (stage next : CallStage ν ε) :
    (s.calling key stage).move s.calls.length next = s.calling key next := by
  have hmoved := List.modifyTailIdx_add (List.modifyHead fun c : LoadCall κ ν ε => { c with stage := next }) 0
    s.calls [{ key, stage }]
  rw [move, calling]
  exact congrArg (fun calls => { s with calls }) hmoved

variable [DecidableEq κ]

/-- The newest call can take its next step. -/
theorem step_advance_calling (s : SingleFlight κ ν ε) (key : κ) (stage : CallStage ν ε) :
    (s.calling key stage).step? (.advance s.calls.length) =
      (s.calling key stage).advance? s.calls.length { key, stage } := by
  simp [step?, calling]

/-- The loader of the newest call can end. -/
theorem step_loaded_calling (s : SingleFlight κ ν ε) (key : κ) (stage : CallStage ν ε) (how : LoadEnd ν ε) :
    (s.calling key stage).step? (.loaded s.calls.length how) =
      (s.calling key stage).loaded? s.calls.length { key, stage } how := by
  simp [step?, calling]

/-! ## Runs -/

variable {s : SingleFlight κ ν ε} {key : κ}

/-- A run whose first event can happen. -/
theorem run_cons {t : SingleFlight κ ν ε} {event : LoadEvent κ ν ε} (hfirst : s.step? event = some t)
    (rest : List (LoadEvent κ ν ε)) : s.run? (event :: rest) = t.run? rest := by
  rw [run?, hfirst, Option.bind_some]

/-- Events run one list after the other. -/
theorem run_append (first rest : List (LoadEvent κ ν ε)) :
    s.run? (first ++ rest) = (s.run? first).bind (run? · rest) := by
  induction first generalizing s with
  | nil => rfl
  | cons event first ih =>
    rw [List.cons_append, run?, run?, Option.bind_assoc]
    exact Option.bind_congr fun t _ => ih

/-! ## Until the loader runs -/

/-- The store after a look-up. -/
def lookedUp (s : SingleFlight κ ν ε) (key : κ) : SingleFlight κ ν ε :=
  { s with cache := (s.cache.get key).2 }

/-- A call that finds its key ends with the value. -/
theorem step_lookUp_of_found {value : ν} (hfound : (s.cache.get key).1 = some value) :
    (s.calling key .lookUp).step? (.advance s.calls.length) =
      some ((s.lookedUp key).calling key (.ended (.value value))) := by
  have hgetEq : (s.calling key .lookUp).cache.get key = (some value, (s.cache.get key).2) := Prod.ext hfound rfl
  rw [step_advance_calling, advance?]
  simp only [hgetEq]
  exact congrArg some (move_calling (s.lookedUp key) key _ _)

/-- A call that does not find its key goes on to the table of cells. -/
theorem step_lookUp_of_not_found (hmissed : (s.cache.get key).1 = none) :
    (s.calling key .lookUp).step? (.advance s.calls.length) = some ((s.lookedUp key).calling key .enter) := by
  have hgetEq : (s.calling key .lookUp).cache.get key = (none, (s.cache.get key).2) := Prod.ext hmissed rfl
  rw [step_advance_calling, advance?]
  simp only [hgetEq]
  exact congrArg some (move_calling (s.lookedUp key) key _ _)

/-- The calls play no part in which cell is taken. -/
theorem takeCell_calling (s : SingleFlight κ ν ε) (key : κ) (stage : CallStage ν ε) :
    (s.calling key stage).takeCell key = ((s.takeCell key).1, (s.takeCell key).2.calling key stage) := by
  have htableEq : (s.calling key stage).inFlight = s.inFlight := rfl
  rw [takeCell, takeCell, htableEq]
  split <;> rfl

/-- Taking a cell leaves the calls alone. -/
@[simp] theorem calls_takeCell (s : SingleFlight κ ν ε) (key : κ) : (s.takeCell key).2.calls = s.calls := by
  rw [takeCell]
  split <;> rfl

/-- Taking a cell leaves the cache alone. -/
@[simp] theorem cache_takeCell (s : SingleFlight κ ν ε) (key : κ) : (s.takeCell key).2.cache = s.cache := by
  rw [takeCell]
  split <;> rfl

/-- A call that enters the table waits for the cell it takes. -/
theorem step_enter (s : SingleFlight κ ν ε) (key : κ) :
    (s.calling key .enter).step? (.advance s.calls.length) =
      some ((s.takeCell key).2.calling key (.wait (s.takeCell key).1)) := by
  rw [step_advance_calling, advance?]
  simp only [takeCell_calling]
  rw [← calls_takeCell s key, move_calling]

/-- A call claims a vacant cell. -/
theorem step_wait (s : SingleFlight κ ν ε) (key : κ) (id : CellId) (hvacant : s.cells[id]? = some .vacant) :
    (s.calling key (.wait id)).step? (.advance s.calls.length) =
      some ((s.setCell id .claimed).calling key (.peek id)) := by
  have hcellEq : (s.calling key (.wait id)).cells[id]? = some .vacant := hvacant
  rw [step_advance_calling, advance?]
  simp only [hcellEq]
  exact congrArg some (move_calling (s.setCell id .claimed) key _ _)

/-- A call that has claimed a cell and does not find its key calls the loader. -/
theorem step_peek (s : SingleFlight κ ν ε) (key : κ) (id : CellId) (habsent : s.cache.peek? key = none) :
    (s.calling key (.peek id)).step? (.advance s.calls.length) = some (s.calling key (.load id)) := by
  have hpeekEq : (s.calling key (.peek id)).cache.peek? key = none := habsent
  rw [step_advance_calling, advance?]
  simp only [hpeekEq]
  exact congrArg some (move_calling s key _ _)

/-- The cell of a key that a look-up has not found, and the store when its loader runs. -/
def led (s : SingleFlight κ ν ε) (key : κ) : CellId × SingleFlight κ ν ε :=
  let (id, s) := (s.lookedUp key).takeCell key
  (id, s.setCell id .claimed)

/-- Leading a load leaves the other calls alone. -/
theorem calls_led (s : SingleFlight κ ν ε) (key : κ) : (s.led key).2.calls = s.calls :=
  calls_takeCell (s.lookedUp key) key

/-- Leading a load has looked at the cache once. -/
theorem cache_led (s : SingleFlight κ ν ε) (key : κ) : (s.led key).2.cache = (s.cache.get key).2 :=
  cache_takeCell (s.lookedUp key) key

/-- A call whose key is not there goes on until its loader runs, if nobody has claimed the cell that it takes. -/
theorem run_begin (hmissed : (s.cache.get key).1 = none) (habsent : (s.led key).2.cache.peek? key = none)
    (hvacant : ((s.lookedUp key).takeCell key).2.cells[(s.led key).1]? = some .vacant) :
    s.run? (.begin key :: List.replicate 4 (.advance s.calls.length)) =
      some ((s.led key).2.calling key (.load (s.led key).1)) := by
  have hbegun : s.step? (.begin key) = some (s.calling key .lookUp) := rfl
  have hwaited := step_wait ((s.lookedUp key).takeCell key).2 key _ hvacant
  have hpeeked := step_peek (s.led key).2 key (s.led key).1 habsent
  rw [calls_takeCell] at hwaited
  rw [calls_led] at hpeeked
  exact (run_cons hbegun _).trans <| (run_cons (step_lookUp_of_not_found hmissed) _).trans <|
    (run_cons (step_enter (s.lookedUp key) key) _).trans <| (run_cons hwaited _).trans <| run_cons hpeeked _

/-! ## When the loader has ended -/

/-- A call enters the value that was loaded unless there is one by now. -/
theorem step_keep (s : SingleFlight κ ν ε) (key : κ) (id : CellId) (value : ν) :
    (s.calling key (.keep id value)).step? (.advance s.calls.length) =
      some ({ s with cache := (s.cache.putIfAbsent key value).2 }.calling key
        (.publish id (.ok (s.cache.putIfAbsent key value).1))) := by
  rw [step_advance_calling]
  exact congrArg some (move_calling { s with cache := (s.cache.putIfAbsent key value).2 } key _ _)

/-- A call publishes the result in its cell. -/
theorem step_publish (s : SingleFlight κ ν ε) (key : κ) (id : CellId) (result : Except ε ν) :
    (s.calling key (.publish id result)).step? (.advance s.calls.length) =
      some ((s.setCell id (.published result)).calling key (.leave id result)) := by
  rw [step_advance_calling]
  exact congrArg some (move_calling (s.setCell id (.published result)) key _ _)

/-- The calls play no part in which cell is struck. -/
theorem strike_calling (s : SingleFlight κ ν ε) (key : κ) (id : CellId) (stage : CallStage ν ε) :
    (s.calling key stage).strike key id = (s.strike key id).calling key stage := by
  have htableEq : (s.calling key stage).inFlight = s.inFlight := rfl
  rw [strike, strike, htableEq]
  split <;> rfl

/-- Striking a cell leaves the calls alone. -/
@[simp] theorem calls_strike (s : SingleFlight κ ν ε) (key : κ) (id : CellId) :
    (s.strike key id).calls = s.calls := by
  rw [strike]
  split <;> rfl

/-- A call strikes its cell and ends with the result. -/
theorem step_leave (s : SingleFlight κ ν ε) (key : κ) (id : CellId) (result : Except ε ν) :
    (s.calling key (.leave id result)).step? (.advance s.calls.length) =
      some ((s.strike key id).calling key (.ended (.ofResult result))) := by
  rw [step_advance_calling, advance?]
  simp only [strike_calling]
  rw [← calls_strike s key id, move_calling]

/-- The turns that a call still takes when its loader has ended so. -/
def turnsLeft : LoadEnd ν ε → Nat
  | .value _ => 3
  | .failed _ => 2
  | .panicked _ => 0

/-- How a call ends whose loader has ended so, and what these turns leave: a value is kept, the cell is published
and struck from the table, but the cell of a loader that was broken off is vacant again. -/
def settle (s : SingleFlight κ ν ε) (key : κ) (id : CellId) : LoadEnd ν ε → LoadEnd ν ε × SingleFlight κ ν ε
  | .value v =>
    let (held, cache) := s.cache.putIfAbsent key v
    (.value held, ({ s with cache }.setCell id (.published (.ok held))).strike key id)
  | .failed e => (.failed e, (s.setCell id (.published (.error e))).strike key id)
  | .panicked message => (.panicked message, s.setCell id .vacant)

/-- Settling a load leaves the other calls alone. -/
@[simp] theorem calls_settle (s : SingleFlight κ ν ε) (key : κ) (id : CellId) (ended : LoadEnd ν ε) :
    (s.settle key id ended).2.calls = s.calls := by
  cases ended with
  | value v => exact calls_strike _ key id
  | failed e => exact calls_strike _ key id
  | panicked message => rfl

/-- A call goes on to its end when its loader has ended. -/
theorem run_loaded (s : SingleFlight κ ν ε) (key : κ) (id : CellId) (ended : LoadEnd ν ε) :
    (s.calling key (.load id)).run?
        (.loaded s.calls.length ended :: List.replicate (turnsLeft ended) (.advance s.calls.length)) =
      some ((s.settle key id ended).2.calling key (.ended (s.settle key id ended).1)) := by
  have hloaded := step_loaded_calling s key (.load id) ended
  cases ended with
  | value v =>
    have hkept := hloaded.trans (congrArg some (move_calling s key _ (.keep id v)))
    exact (run_cons hkept _).trans <| (run_cons (step_keep s key id v) _).trans <|
      (run_cons (step_publish _ key id _) _).trans <| run_cons (step_leave _ key id _) _
  | failed e =>
    have hfailed := hloaded.trans (congrArg some (move_calling s key _ (.publish id (.error e))))
    exact (run_cons hfailed _).trans <| (run_cons (step_publish s key id _) _).trans <|
      run_cons (step_leave _ key id _) _
  | panicked message =>
    have hbroken := hloaded.trans (congrArg some
      (move_calling (s.setCell id .vacant) key (.load id) (.ended (.panicked message))))
    exact run_cons hbroken _

end EvidenceFlow.SingleFlight
