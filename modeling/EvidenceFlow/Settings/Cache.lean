import EvidenceFlow.Settings.Lru
import EvidenceFlow.Text.Blank

/-!
# Settings of result stores

A result store is built by name. Unless a number of segments is asked for, there is one for each
processor of the machine that the program runs on.
-/

namespace EvidenceFlow

open Text

/-- How many segments are asked for. -/
inductive Concurrency where
  /-- One for each processor. -/
  | perProcessor
  /-- A fixed number. -/
  | exactly (n : Nat)
deriving DecidableEq, Repr, Inhabited

namespace Concurrency

/-- The number of segments on a machine with that many processors. -/
def count (processors : Nat) : Concurrency → Nat
  | perProcessor => max processors 1
  | exactly n => n

end Concurrency

/-- The settings of a result store. -/
structure CacheSettings where
  /-- The name of what builds the store. -/
  builder : String := "lru"
  /-- The greatest number of results. -/
  size : Nat := 1000
  /-- The number of segments. -/
  concurrency : Concurrency := .perProcessor
  /-- Whether a result put under a key that is there replaces the one held. -/
  updateExisting : Bool := true
deriving DecidableEq, Repr, Inhabited

namespace CacheSettings

/-- The settings of the segmented store on a machine with that many processors. -/
def lru (settings : CacheSettings) (processors : Nat) : LruSettings where
  capacity := settings.size
  concurrency := settings.concurrency.count processors
  updateExisting := settings.updateExisting

/-- Refuses a blank name, and then what segmented stores refuse. -/
def validate (settings : CacheSettings) (processors : Nat) : Except Fault Unit :=
  if isAllBlank settings.builder then .error (.setting (.missing "builder"))
  else (settings.lru processors).validate

end CacheSettings

end EvidenceFlow
