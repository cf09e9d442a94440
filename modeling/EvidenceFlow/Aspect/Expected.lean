import EvidenceFlow.Fault

/-!
# Expected failures of reads

Whether a read failed in the way that was expected.
-/

namespace EvidenceFlow

/-- How a read is expected to fail. -/
inductive ExpectedFailure where
  /-- For time, in a single task. -/
  | timeout
  /-- In a single task that was cancelled. -/
  | cancelled
  /-- In a number of tasks. -/
  | aggregate (count : Nat)
deriving DecidableEq, Repr

/-- The faults beneath a read that failed as expected, if it did. -/
def ExpectedFailure.matches? {α : Type} (expected : ExpectedFailure) (read : Except Fault α) :
    Option (List LazyFault) :=
  match expected, read with
  | timeout, .error (.lazyRead fault) => if fault.isTimeout then some [fault] else none
  | cancelled, .error (.lazyRead fault) => if fault.isCancelled then some [fault] else none
  | aggregate count, .error (.lazyRead (.aggregate _ _ causes)) =>
    if causes.length = count then some causes else none
  | _, _ => none

end EvidenceFlow
