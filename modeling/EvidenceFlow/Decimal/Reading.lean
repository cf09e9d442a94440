import EvidenceFlow.Decimal.Double

/-!
# Reading decimals

A decimal text becomes a double in two roundings: its digits are rounded to a double, and the product
or quotient with the power of ten is rounded again. Digits beyond the range of 64 bits are dropped.
-/

namespace EvidenceFlow.Double

/-- The power `10 ^ n` as a float. -/
def powerOfTen (n : Nat) : Float :=
  Float.ofScientific 1 false n

/-- The magnitude `digits * 10 ^ exponent`, or `none` if it is too large. -/
def scaled? (digits : Nat) (exponent : Int) : Option Double :=
  let start := Float.ofNat digits
  let result :=
    if 0 ≤ exponent then
      if start == 0 then 0
      else if exponent ≤ 308 then start * powerOfTen exponent.toNat
      else 1 / 0
    else if -308 ≤ exponent then start / powerOfTen (-exponent).toNat
    else if -616 ≤ exponent then start / powerOfTen 308 / powerOfTen (-exponent - 308).toNat
    else 0
  if result.isInf then none else some (ofFloat result)

/-- The double with the sign turned. -/
def negate (x : Double) : Double := ⟨x.bits ^^^ 0x8000000000000000⟩

end EvidenceFlow.Double
