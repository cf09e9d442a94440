/-!
# Recency lists

The plain picture of a store that evicts the entry used least recently: a list of entries, each key
once, the one used last in front. A look-up moves the entry that it finds to the front, and an entry
that finds no room pushes out the last one.
-/

namespace EvidenceFlow

/-- A bounded list of entries, the one used last in front. -/
structure Recency (κ ν : Type) where
  /-- The greatest number of entries. -/
  capacity : Nat
  /-- The entries. -/
  entries : List (κ × ν) := []
deriving Repr, DecidableEq

namespace Recency

variable {κ ν : Type}

/-- The list without entries. -/
def empty (capacity : Nat) : Recency κ ν := { capacity := capacity }

/-- The keys, the one used last in front. -/
def keys (r : Recency κ ν) : List κ := r.entries.map (·.1)

/-- The number of entries. -/
def size (r : Recency κ ν) : Nat := r.entries.length

variable [DecidableEq κ]

/-- The entries of other keys. -/
def others (r : Recency κ ν) (key : κ) : List (κ × ν) :=
  r.entries.filter fun entry => entry.1 ≠ key

/-- The value of a key; nothing changes. -/
def peek? (r : Recency κ ν) (key : κ) : Option ν := r.entries.lookup key

/-- Whether the key is there. -/
def contains (r : Recency κ ν) (key : κ) : Bool := (r.peek? key).isSome

/-- The value of a key, which moves to the front. -/
def get (r : Recency κ ν) (key : κ) : Option ν × Recency κ ν :=
  match r.peek? key with
  | none => (none, r)
  | some value => (some value, { r with entries := (key, value) :: r.others key })

/-- Puts a key that is not there in front, where the last entry goes if there is no room. -/
def push (r : Recency κ ν) (key : κ) (value : ν) : Recency κ ν :=
  { r with
    entries := (key, value) ::
      if r.capacity ≤ r.size then r.entries.dropLast else r.entries }

/-- Puts a value under a key; one that is there moves to the front with the new value if `update`
says so, and else nothing changes. -/
def put (r : Recency κ ν) (update : Bool) (key : κ) (value : ν) : Recency κ ν :=
  match r.peek? key with
  | none => r.push key value
  | some _ => if update then { r with entries := (key, value) :: r.others key } else r

/-- Puts a value under a key that is not there, and gives back what the key then holds. -/
def putIfAbsent (r : Recency κ ν) (key : κ) (value : ν) : ν × Recency κ ν :=
  match r.peek? key with
  | none => (value, r.push key value)
  | some held => (held, r)

/-- Removes a key and gives back its value. -/
def remove (r : Recency κ ν) (key : κ) : Option ν × Recency κ ν :=
  (r.peek? key, { r with entries := r.others key })

/-- The list with all entries dropped. -/
def cleared (r : Recency κ ν) : Recency κ ν := empty r.capacity

end Recency

end EvidenceFlow
