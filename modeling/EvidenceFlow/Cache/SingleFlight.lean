import EvidenceFlow.Cache.Command
import EvidenceFlow.Cache.Loading
import EvidenceFlow.Table

/-!
# Loads side by side

Calls that load keys of one store at the same time, step by step. A call looks its key up; if it finds
nothing it takes the cell that stands for the key in the table of running loads, or enters a new one.
Who finds the cell unclaimed claims it, looks once more, runs the loader, keeps the value, publishes the
result in the cell and strikes the cell from the table. All others wait for the cell. A loader that is
broken off leaves the cell unclaimed in the table. Between any two steps of a call, other calls may take
steps and anybody may use the store.
-/

namespace EvidenceFlow

/-- The place of a cell among those made so far. -/
abbrev CellId := Nat

/-- Where those who wait for a load find its result. -/
inductive Cell (ν ε : Type) where
  /-- Nobody has claimed it. -/
  | vacant
  /-- The load is under way. -/
  | claimed
  /-- The load has ended. -/
  | published (result : Except ε ν)

/-- Where a call stands. -/
inductive CallStage (ν ε : Type) where
  /-- It is about to look its key up. -/
  | lookUp
  /-- It has found nothing and is about to take a cell. -/
  | enter
  /-- It waits for the cell, or is about to claim it. -/
  | wait (cell : CellId)
  /-- It has claimed the cell and is about to look once more. -/
  | peek (cell : CellId)
  /-- Its loader runs. -/
  | load (cell : CellId)
  /-- Its loader has returned a value that is to be kept. -/
  | keep (cell : CellId) (value : ν)
  /-- It is about to publish the result. -/
  | publish (cell : CellId) (result : Except ε ν)
  /-- It is about to strike the cell from the table. -/
  | leave (cell : CellId) (result : Except ε ν)
  /-- It has ended. -/
  | ended (how : LoadEnd ν ε)

/-- How a call ends with a result. -/
def LoadEnd.ofResult {ν ε : Type} : Except ε ν → LoadEnd ν ε
  | .ok v => .value v
  | .error e => .failed e

/-- A call that loads a key. -/
structure LoadCall (κ ν ε : Type) where
  /-- The key. -/
  key : κ
  /-- Where it stands. -/
  stage : CallStage ν ε := .lookUp

/-- A store and the calls that load its keys. -/
structure SingleFlight (κ ν ε : Type) where
  /-- The store. -/
  cache : Lru κ ν
  /-- The cells made so far. -/
  cells : List (Cell ν ε) := []
  /-- The cells of running loads. -/
  inFlight : Table κ CellId := []
  /-- The calls begun so far. -/
  calls : List (LoadCall κ ν ε) := []

/-- What happens next. -/
inductive LoadEvent (κ ν ε : Type) where
  /-- A call begins. -/
  | begin (key : κ)
  /-- A call takes its next step; a call whose loader runs does not. -/
  | advance (call : Nat)
  /-- The loader of a call ends. -/
  | loaded (call : Nat) (how : LoadEnd ν ε)
  /-- Somebody uses the store. -/
  | use (command : StoreCommand κ ν)
deriving DecidableEq, Repr

namespace SingleFlight

variable {κ ν ε : Type}

/-- The calls with one call moved on. -/
def move (s : SingleFlight κ ν ε) (call : Nat) (stage : CallStage ν ε) : SingleFlight κ ν ε :=
  { s with calls := s.calls.modify call fun c => { c with stage } }

/-- The cells with one cell changed. -/
def setCell (s : SingleFlight κ ν ε) (id : CellId) (cell : Cell ν ε) : SingleFlight κ ν ε :=
  { s with cells := s.cells.set id cell }

variable [DecidableEq κ]

/-- The cell that stands for a key, entered if there is none. -/
def takeCell (s : SingleFlight κ ν ε) (key : κ) : CellId × SingleFlight κ ν ε :=
  match s.inFlight.lookup key with
  | some id => (id, s)
  | none =>
    let id := s.cells.length
    (id, { s with cells := s.cells ++ [.vacant], inFlight := s.inFlight.put key id })

/-- Strikes a cell from the table, if it still stands for the key. -/
def strike (s : SingleFlight κ ν ε) (key : κ) (id : CellId) : SingleFlight κ ν ε :=
  if s.inFlight.lookup key = some id then { s with inFlight := s.inFlight.erase key } else s

/-- The next step of a call, if it can take one. -/
def advance? (s : SingleFlight κ ν ε) (call : Nat) (c : LoadCall κ ν ε) :
    Option (SingleFlight κ ν ε) :=
  match c.stage with
  | .lookUp =>
    match s.cache.get c.key with
    | (some value, cache) => some ({ s with cache }.move call (.ended (.value value)))
    | (none, cache) => some ({ s with cache }.move call .enter)
  | .enter =>
    let (id, s) := s.takeCell c.key
    some (s.move call (.wait id))
  | .wait id =>
    match s.cells[id]? with
    | some .vacant => some ((s.setCell id .claimed).move call (.peek id))
    | some (.published result) => some (s.move call (.ended (.ofResult result)))
    | some .claimed | none => none
  | .peek id =>
    match s.cache.peek? c.key with
    | some value => some (s.move call (.publish id (.ok value)))
    | none => some (s.move call (.load id))
  | .keep id value =>
    let (held, cache) := s.cache.putIfAbsent c.key value
    some ({ s with cache }.move call (.publish id (.ok held)))
  | .publish id result => some ((s.setCell id (.published result)).move call (.leave id result))
  | .leave id result => some ((s.strike c.key id).move call (.ended (.ofResult result)))
  | .load _ | .ended _ => none

/-- The end of the loader of a call, if it runs. -/
def loaded? (s : SingleFlight κ ν ε) (call : Nat) (c : LoadCall κ ν ε) (how : LoadEnd ν ε) :
    Option (SingleFlight κ ν ε) :=
  match c.stage, how with
  | .load id, .value value => some (s.move call (.keep id value))
  | .load id, .failed e => some (s.move call (.publish id (.error e)))
  | .load id, .panicked message =>
    some ((s.setCell id .vacant).move call (.ended (.panicked message)))
  | _, _ => none

/-- What an event leads to, if it can happen. -/
def step? (s : SingleFlight κ ν ε) : LoadEvent κ ν ε → Option (SingleFlight κ ν ε)
  | .begin key => some { s with calls := s.calls ++ [{ key := key }] }
  | .advance call => s.calls[call]?.bind (s.advance? call)
  | .loaded call how => s.calls[call]?.bind (s.loaded? call · how)
  | .use command => some { s with cache := (s.cache.answer command).2 }

/-- What events lead to, one after the other, if they can happen. -/
def run? (s : SingleFlight κ ν ε) : List (LoadEvent κ ν ε) → Option (SingleFlight κ ν ε)
  | [] => some s
  | event :: rest => (s.step? event).bind (run? · rest)

/-- The store without entries that the settings describe, before any call. -/
def start (place : κ → Nat) (settings : LruSettings) : SingleFlight κ ν ε where
  cache := .ofSettings place settings

/-- Whether the call of a number runs its loader for a key. -/
def isLoading (s : SingleFlight κ ν ε) (key : κ) (call : Nat) : Bool :=
  match s.calls[call]? with
  | some { key := other, stage := .load _ } => other = key
  | _ => false

/-- What has become of the call of a number, once it has ended. -/
def endOf? (s : SingleFlight κ ν ε) (call : Nat) : Option (LoadEnd ν ε) :=
  match s.calls[call]? with
  | some { key := _, stage := .ended how } => some how
  | _ => none

end SingleFlight

end EvidenceFlow
