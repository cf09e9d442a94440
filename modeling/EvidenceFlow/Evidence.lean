import EvidenceFlow.Json.Basic
import EvidenceFlow.Table
import EvidenceFlow.Text.LowerCase

/-!
# Evidence

Evidence is a list of named values in the order in which the names first came. Names are told apart in
lower case, and the spelling that came first is kept. An index from lower-case names to positions
answers look-ups; it has fallen behind when it does not have as many names as there are entries, as
after reading evidence back from a record, which holds the entries only. Until the next addition
rebuilds the index, look-ups then go through the entries, and tell names apart up to the case of ASCII
letters.
-/

namespace EvidenceFlow

open Text

/-- One named value. -/
structure Evidence.Entry where
  /-- The name as first spelled. -/
  key : String
  /-- The value last given. -/
  value : Json
deriving Inhabited

/-- Named values in order of arrival. -/
structure Evidence where
  /-- The entries. -/
  entries : List Evidence.Entry := []
  /-- The position of each lower-case name, each name once. -/
  index : Table String Nat := []
deriving Inhabited

namespace Evidence

/-- No evidence. -/
def empty : Evidence := {}

/-- The number of entries. -/
def size (e : Evidence) : Nat := e.entries.length

/-- The index of entries from a position on, added to an index; later entries take a name over. -/
def indexFrom (position : Nat) (index : Table String Nat) : List Entry → Table String Nat
  | [] => index
  | entry :: rest => indexFrom (position + 1) (index.put (lowercase entry.key) position) rest

/-- Whether the index has as many names as there are entries. -/
def isIndexed (e : Evidence) : Bool :=
  e.index.length == e.entries.length

/-- The evidence with an index that covers every entry. -/
def reindexed (e : Evidence) : Evidence :=
  if e.isIndexed then e else { e with index := indexFrom 0 [] e.entries }

/-- The entries with a new value at one position. -/
def setValue (position : Nat) (value : Json) (entries : List Entry) : List Entry :=
  entries.modify position fun entry => { entry with value }

/-- Adds a value, or replaces the value of a name that is there; the position and the spelling stay. -/
def add (e : Evidence) (key : String) (value : Json) : Evidence :=
  let e := e.reindexed
  match e.index.lookup (lowercase key) with
  | some position => { e with entries := setValue position value e.entries }
  | none =>
    { entries := e.entries ++ [⟨key, value⟩]
      index := e.index.put (lowercase key) e.entries.length }

/-- Adds values one after the other. -/
def addAll (e : Evidence) (pairs : List (String × Json)) : Evidence :=
  pairs.foldl (fun e pair => e.add pair.1 pair.2) e

/-- Adds all values of other evidence. -/
def merge (e other : Evidence) : Evidence :=
  other.entries.foldl (fun e entry => e.add entry.key entry.value) e

/-- The evidence of a list of named values. -/
def ofList (pairs : List (String × Json)) : Evidence :=
  empty.addAll pairs

/-- The position of a name. -/
def position? (e : Evidence) (key : String) : Option Nat :=
  if e.isIndexed then e.index.lookup (lowercase key)
  else e.entries.findIdx? fun entry => eqUpToAsciiCase entry.key key

/-- The value of a name. -/
def get? (e : Evidence) (key : String) : Option Json :=
  (e.position? key).bind fun position => e.entries[position]?.map (·.value)

/-- The text of a name, if its value is one. -/
def getText? (e : Evidence) (key : String) : Option String :=
  (e.get? key).bind Json.asText?

/-- Whether there is a value of the name. -/
def contains (e : Evidence) (key : String) : Bool :=
  (e.position? key).isSome

/-- The names in order of arrival. -/
def keys (e : Evidence) : List String :=
  e.entries.map (·.key)

/-- The evidence as its record gives it back: the entries, and no index. -/
def ofEntries (entries : List Entry) : Evidence :=
  { entries := entries }

end Evidence

end EvidenceFlow
