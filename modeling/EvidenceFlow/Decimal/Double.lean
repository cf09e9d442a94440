/-!
# Double-precision numbers

A double is kept as its 64 bits, so that equal values are equal bits and nothing about them is
hidden from proofs. A finite double is a signed natural number times a power of two.
-/

namespace EvidenceFlow

/-- A double-precision number, by its bits. -/
structure Double where
  /-- Sign, exponent and fraction, from the top. -/
  bits : UInt64
deriving DecidableEq, Repr, Inhabited

namespace Double

/-- The double of a machine float. -/
def ofFloat (x : Float) : Double := ⟨x.toBits⟩

/-- The machine float of a double. -/
def toFloat (x : Double) : Float := Float.ofBits x.bits

/-- Whether the sign bit is set. -/
def isNegative (x : Double) : Bool := x.bits >>> 63 == 1

/-- The eleven bits of the exponent. -/
def exponentBits (x : Double) : Nat := ((x.bits >>> 52) &&& 0x7FF).toNat

/-- The 52 bits of the fraction. -/
def fractionBits (x : Double) : Nat := (x.bits &&& 0xFFFFFFFFFFFFF).toNat

/-- Whether the double is a number, that is neither infinite nor undefined. -/
def isFinite (x : Double) : Bool := x.exponentBits != 0x7FF

/-- Whether the double is one of the two zeros. -/
def isZero (x : Double) : Bool := x.exponentBits == 0 && x.fractionBits == 0

/-- Equality of values: both zeros are the same value. -/
def sameValue (x y : Double) : Bool :=
  x == y || (x.isZero && y.isZero)

/-- The double nearest to an integer, ties to the even neighbour. -/
def ofInt (n : Int) : Double :=
  let magnitude := Float.ofNat n.natAbs
  ofFloat (if n < 0 then -magnitude else magnitude)

/-- The sixteen hexadecimal digits of the bits. -/
def toHex (x : Double) : String :=
  let digits := Nat.toDigits 16 x.bits.toNat
  String.ofList (List.replicate (16 - digits.length) '0' ++ digits)

end Double

end EvidenceFlow
