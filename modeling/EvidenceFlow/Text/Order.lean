/-!
# Ordered texts
-/

namespace EvidenceFlow.Text

/-- The texts in ascending order of their characters. -/
def ascending (texts : List String) : List String :=
  texts.mergeSort fun a b => decide (a ≤ b)

end EvidenceFlow.Text
