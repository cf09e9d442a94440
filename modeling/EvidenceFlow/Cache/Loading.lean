import EvidenceFlow.Cache.Lru

/-!
# Loading stores

A loading store fills itself: a key that it does not hold is given to a loader, and the value comes
into the store. While a loader runs its key stands in a table of running loads. The loader may itself
use the store; a value that it left under the key wins over the one that it returns. A loader that
breaks off leaves its key in the table, and the next load of the key runs as if it were not there.
-/

namespace EvidenceFlow

open Text

/-- How a load or a loader ends. -/
inductive LoadEnd (ν ε : Type) where
  /-- With a value. -/
  | value (v : ν)
  /-- With a fault. -/
  | failed (e : ε)
  /-- Broken off, with a message. -/
  | panicked (message : String)
deriving Repr, DecidableEq, Inhabited

/-- A store that fills itself. -/
structure LoadingCache (κ ν : Type) where
  /-- What has been loaded or put. -/
  cache : Lru κ ν
  /-- The keys whose loader runs or was broken off. -/
  inFlight : List κ := []
  /-- Runs of a loader. -/
  loads : Nat := 0
  /-- Runs of a loader that failed. -/
  loadFailures : Nat := 0

/-- What finds the value of a key, perhaps using the store meanwhile. -/
abbrev Loader (κ ν ε : Type) := LoadingCache κ ν → LoadEnd ν ε × LoadingCache κ ν

namespace LoadingCache

variable {κ ν ε : Type}

/-- The store without entries that the settings describe, if they are valid. -/
def make (place : κ → Nat) (settings : LruSettings) : Except Fault (LoadingCache κ ν) := do
  return { cache := ← Lru.make place settings }

/-- The number of entries. -/
def size (c : LoadingCache κ ν) : Nat := c.cache.size

/-- The counts. -/
def stats (c : LoadingCache κ ν) : CacheStats :=
  { c.cache.stats with loads := c.loads, loadFailures := c.loadFailures }

/-- How the store is shown. -/
def shown (c : LoadingCache κ ν) : String :=
  shownRecord "LruLoadingCache" [("cache", c.cache.shown)]

variable [DecidableEq κ]

/-- Whether the key is there; nothing changes. -/
def contains (c : LoadingCache κ ν) (key : κ) : Bool := c.cache.contains key

/-- The value of a key, which becomes the one used last. -/
def get (c : LoadingCache κ ν) (key : κ) : Option ν × LoadingCache κ ν :=
  let (found, cache) := c.cache.get key
  (found, { c with cache })

/-- Puts a value under a key. -/
def put (c : LoadingCache κ ν) (key : κ) (value : ν) : LoadingCache κ ν :=
  { c with cache := c.cache.put key value }

/-- Removes a key and gives back its value. -/
def remove (c : LoadingCache κ ν) (key : κ) : Option ν × LoadingCache κ ν :=
  let (found, cache) := c.cache.remove key
  (found, { c with cache })

/-- The store with all entries dropped and all counts at zero. Loads that are running stay in the
table. -/
def reset (c : LoadingCache κ ν) : LoadingCache κ ν :=
  { c with cache := c.cache.reset, loads := 0, loadFailures := 0 }

/-- Enters a key into the table of running loads, where it may stand already. -/
def enter (c : LoadingCache κ ν) (key : κ) : LoadingCache κ ν :=
  if key ∈ c.inFlight then c else { c with inFlight := c.inFlight ++ [key] }

/-- Strikes a key from the table of running loads. -/
def leave (c : LoadingCache κ ν) (key : κ) : LoadingCache κ ν :=
  { c with inFlight := c.inFlight.filter (· ≠ key) }

/-- Takes up what a loader returned for a key: a value is put unless the key holds one by now, a
failure is counted, and what was broken off leaves the key in the table. -/
def settle (c : LoadingCache κ ν) (key : κ) : LoadEnd ν ε → LoadEnd ν ε × LoadingCache κ ν
  | .value v =>
    let (held, cache) := c.cache.putIfAbsent key v
    (.value held, { c with cache }.leave key)
  | .failed e => (.failed e, { c with loadFailures := c.loadFailures + 1 }.leave key)
  | .panicked message => (.panicked message, c)

/-- Runs a loader for a key that a look-up has just not found. -/
def lead (c : LoadingCache κ ν) (key : κ) (loader : Loader κ ν ε) :
    LoadEnd ν ε × LoadingCache κ ν :=
  let c := c.enter key
  match c.cache.peek? key with
  | some held => (.value held, c.leave key)
  | none =>
    let (ended, c) := loader { c with loads := c.loads + 1 }
    c.settle key ended

/-- The value of a key, from the store or else from the loader. -/
def load (c : LoadingCache κ ν) (key : κ) (loader : Loader κ ν ε) :
    LoadEnd ν ε × LoadingCache κ ν :=
  match c.get key with
  | (some value, c) => (.value value, c)
  | (none, c) => c.lead key loader

/-- Loads a key several times with the same loader, one load after the other. Loads that overlap
join the first one; where the loader does nothing but return a value the ends are the same. -/
def loadRepeatedly (c : LoadingCache κ ν) (key : κ) (loader : Loader κ ν ε) :
    Nat → List (LoadEnd ν ε) × LoadingCache κ ν
  | 0 => ([], c)
  | n + 1 =>
    let (ended, c) := c.load key loader
    let (rest, c) := c.loadRepeatedly key loader n
    (ended :: rest, c)

end LoadingCache

/-- A use of a loading store. Loads may bring a loader of their own, which uses the store before it
ends. -/
inductive LoadingCommand (κ ν ε : Type) where
  /-- Looks a key up. -/
  | get (key : κ)
  /-- Puts a value. -/
  | put (key : κ) (value : ν)
  /-- Removes a key. -/
  | remove (key : κ)
  /-- Drops everything. -/
  | reset
  /-- Asks what changes nothing. -/
  | observe
  /-- Loads a key with the loader of the store. -/
  | load (key : κ)
  /-- Loads a key with a loader that runs commands and then ends. -/
  | loadWith (key : κ) (before : List (LoadingCommand κ ν ε)) (ended : LoadEnd ν ε)
  /-- Loads a key several times with a loader that runs commands and then ends. -/
  | loadRepeatedly (key : κ) (times : Nat) (before : List (LoadingCommand κ ν ε))
    (ended : LoadEnd ν ε)
deriving Inhabited

namespace LoadingCommand

variable {κ ν ε : Type} [DecidableEq κ]

mutual

/-- Runs a command, of which only a load has an end of interest; `own` is the loader of the store. -/
def run (own : κ → LoadEnd ν ε) : LoadingCommand κ ν ε → LoadingCache κ ν → LoadingCache κ ν
  | get key, c => (c.get key).2
  | put key value, c => c.put key value
  | remove key, c => (c.remove key).2
  | reset, c => c.reset
  | observe, c => c
  | load key, c => (c.load key fun c => (own key, c)).2
  | loadWith key before ended, c => (c.load key fun c => (ended, runAll own before c)).2
  | loadRepeatedly key times before ended, c =>
    (c.loadRepeatedly key (fun c => (ended, runAll own before c)) times).2

/-- Runs commands one after the other; one that is broken off does not keep the others from
running. -/
def runAll (own : κ → LoadEnd ν ε) : List (LoadingCommand κ ν ε) → LoadingCache κ ν → LoadingCache κ ν
  | [], c => c
  | command :: rest, c => runAll own rest (run own command c)

end

end LoadingCommand

namespace LoadingCache

variable {κ ν ε : Type} [DecidableEq κ]

/-- Loads a key with the loader of the store. -/
def loadOwn (c : LoadingCache κ ν) (own : κ → LoadEnd ν ε) (key : κ) :
    LoadEnd ν ε × LoadingCache κ ν :=
  c.load key fun c => (own key, c)

/-- Loads a key with a loader that runs commands and then ends. -/
def loadWith (c : LoadingCache κ ν) (own : κ → LoadEnd ν ε) (key : κ)
    (before : List (LoadingCommand κ ν ε)) (ended : LoadEnd ν ε) : LoadEnd ν ε × LoadingCache κ ν :=
  c.load key fun c => (ended, LoadingCommand.runAll own before c)

end LoadingCache

/-- A loader by tables: keys that fail, keys at which it is broken off, keys with a value; the value
of any other key is the key behind a fixed beginning. -/
structure TableLoader (ν : Type) where
  /-- The reasons of keys that fail. -/
  fails : List (String × String) := []
  /-- The keys at which the loader is broken off. -/
  panics : List String := []
  /-- The values of keys. -/
  table : List (String × ν) := []
  /-- The value of any other key. -/
  other : String → ν

namespace TableLoader

/-- What the loader returns for a key. -/
def result {ν : Type} (loader : TableLoader ν) (key : String) : LoadEnd ν LoadFault :=
  match loader.fails.lookup key with
  | some reason => .failed ⟨key, reason⟩
  | none =>
    if key ∈ loader.panics then .panicked ("loader panicked for " ++ key)
    else .value ((loader.table.lookup key).getD (loader.other key))

end TableLoader

end EvidenceFlow
