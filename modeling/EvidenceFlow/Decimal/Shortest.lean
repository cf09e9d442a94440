import EvidenceFlow.Decimal.Double

/-!
# The shortest decimal that reads back

A finite double stands for the interval of reals that round to it. The decimal written for it has the
fewest digits among those in the interval, and of these it is the nearest to the exact value. The
search works in exact arithmetic on natural numbers: for one digit, two digits and so on it looks at
the two neighbours of the value on that decimal grid.
-/

namespace EvidenceFlow

/-- A decimal `digits * 10 ^ exponent`. -/
structure Decimal where
  /-- The digits, as one number. -/
  digits : Nat
  /-- The power of ten. -/
  exponent : Int
deriving DecidableEq, Repr

namespace Decimal

/-- A positive number `mantissa * 2 ^ exponent`, as a double holds it. -/
structure Binary where
  /-- The integer before scaling. -/
  mantissa : Nat
  /-- The power of two. -/
  exponent : Int
  /-- The neighbour below is only half as far away as the neighbour above. -/
  narrowBelow : Bool
deriving DecidableEq, Repr

/-- The magnitude of a finite double. -/
def Binary.ofDouble (x : Double) : Binary :=
  if x.exponentBits = 0 then ⟨x.fractionBits, -1074, false⟩
  else ⟨Nat.pow 2 52 + x.fractionBits, x.exponentBits - 1075, x.fractionBits == 0 && x.exponentBits > 1⟩

/-- Compares `a * 10 ^ i` with `b * 2 ^ j`, exactly. -/
def compareScaled (a : Nat) (i : Int) (b : Nat) (j : Int) : Ordering :=
  compare (a * Nat.pow 10 i.toNat * Nat.pow 2 (-j).toNat) (b * Nat.pow 2 j.toNat * Nat.pow 10 (-i).toNat)

/-- Whether the decimal lies among the reals that round to the number. The ends of the interval,
halfway to either neighbour, belong to it when the mantissa is even. -/
def Binary.readsBack (x : Binary) (d : Decimal) : Bool :=
  let low := if x.narrowBelow then 4 * x.mantissa - 1 else 4 * x.mantissa - 2
  let high := 4 * x.mantissa + 2
  let closed := x.mantissa % 2 == 0
  let fromLow := compareScaled d.digits d.exponent low (x.exponent - 2)
  let fromHigh := compareScaled d.digits d.exponent high (x.exponent - 2)
  (fromLow == .gt || (closed && fromLow == .eq)) && (fromHigh == .lt || (closed && fromHigh == .eq))

/-- An estimate of the power of ten just above the number, too low by one or two at most. -/
def Binary.scaleEstimate (x : Binary) : Int :=
  ((x.mantissa.log2 + x.exponent) * 30103).fdiv 100000 - 1

/-- The least power of ten above the number. -/
def Binary.scale (x : Binary) : Int :=
  let start := x.scaleEstimate
  match [start, start + 1, start + 2, start + 3].find?
      fun k => compareScaled 1 k x.mantissa x.exponent == .gt with
  | some k => k
  | none => start + 4

/-- The whole part of the number on the grid of multiples of `10 ^ k`. -/
def Binary.floorAt (x : Binary) (k : Int) : Nat :=
  (x.mantissa * Nat.pow 2 x.exponent.toNat * Nat.pow 10 (-k).toNat) /
    (Nat.pow 2 (-x.exponent).toNat * Nat.pow 10 k.toNat)

/-- The neighbour of the number on the grid of multiples of `10 ^ k` that reads back; the nearer one
if both do, the even one if both are as near. -/
def Binary.candidate? (x : Binary) (k : Int) : Option Decimal :=
  let below : Decimal := ⟨x.floorAt k, k⟩
  let above : Decimal := ⟨x.floorAt k + 1, k⟩
  match x.readsBack below, x.readsBack above with
  | true, false => some below
  | false, true => some above
  | false, false => none
  | true, true =>
    match compareScaled (2 * below.digits + 1) k x.mantissa (x.exponent + 1) with
    | .gt => some below
    | .lt => some above
    | .eq => some (if below.digits % 2 = 0 then below else above)

/-- Drops up to `n` zeros from the end of the digits. -/
def dropZeros : Nat → Decimal → Decimal
  | 0, d => d
  | n + 1, d => if d.digits % 10 = 0 then dropZeros n ⟨d.digits / 10, d.exponent + 1⟩ else d

/-- The exact decimal value of the number. -/
def Binary.exact (x : Binary) : Decimal :=
  ⟨x.mantissa * Nat.pow 2 x.exponent.toNat * Nat.pow 5 (-x.exponent).toNat, min x.exponent 0⟩

/-- The shortest decimal that reads back to the positive number, nearest to it among those. -/
def Binary.shortest (x : Binary) : Decimal :=
  let scale := x.scale
  let found := (List.range 17).findSome? fun n : Nat => x.candidate? (scale - (n + 1 : Nat))
  dropZeros 20 (found.getD x.exact)

end Decimal

end EvidenceFlow
