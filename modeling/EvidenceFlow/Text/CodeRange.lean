/-!
# Ranges of code points

Properties of characters are tables of closed ranges of code points, ascending and apart. A
character has the property when its code point lies in one of them.
-/

namespace EvidenceFlow.Text

/-- A closed range of code points, first and last. -/
abbrev CodeRange := Nat × Nat

/-- Whether the code point lies in one of the ranges. -/
def inRanges (ranges : List CodeRange) (code : Nat) : Bool :=
  ranges.any fun range => range.1 ≤ code && code ≤ range.2

/-- A code is in ranges if it lies between the ends of one of them. -/
theorem inRanges_eq_true {ranges : List CodeRange} {code : Nat} :
    inRanges ranges code = true ↔ ∃ range ∈ ranges, range.1 ≤ code ∧ code ≤ range.2 := by
  simp [inRanges]

end EvidenceFlow.Text
