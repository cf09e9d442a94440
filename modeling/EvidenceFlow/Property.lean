/-!
# Properties

What an element declares to write.
-/

namespace EvidenceFlow

/-- A property that an element declares. -/
structure Property where
  /-- The name. -/
  name : String
  /-- The key of the data on which it is found. -/
  elementKey : String
  /-- Whether it is written, or was excluded. -/
  available : Bool := true
deriving DecidableEq, Repr, Inhabited

end EvidenceFlow
