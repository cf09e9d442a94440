import EvidenceFlow.Scene

/-!
# Elements

An element is a unit of work in a pipeline. It declares what evidence it consumes, what it writes and
which other elements must have run before it, and it leaves its data under its key.
-/

namespace EvidenceFlow

/-- A unit of work in a pipeline. -/
structure Element (υ : Type) where
  /-- The number by which the element is known. -/
  number : Nat
  /-- The key under which it leaves its data. -/
  key : String
  /-- The evidence that it consumes. -/
  filter : Filter
  /-- What it declares to write. -/
  properties : List Property := []
  /-- The keys of the elements that must have run before it. -/
  requires : List String := []
  /-- Deals with a flow. -/
  process : Act υ Unit
  /-- Gives up what it holds. -/
  close : Chore υ Unit := pure ()

end EvidenceFlow
