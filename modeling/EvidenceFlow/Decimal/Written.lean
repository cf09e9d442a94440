import EvidenceFlow.Decimal.Shortest

/-!
# The written form of doubles

Numbers from `0.00001` to below `1e+16` are written positionally and always with a point; all others
in scientific form with one digit before the point, whose exponent has a sign and no padding.
-/

namespace EvidenceFlow

namespace Decimal

/-- The decisions of a written form of decimals. -/
structure Style where
  /-- The least exponent of the leading digit that is written positionally. -/
  plainFrom : Int
  /-- The first exponent of the leading digit that no longer is. -/
  plainBelow : Int
  /-- What follows a whole number that is written positionally. -/
  wholeEnd : String
  /-- The sign of an exponent that is not negative. -/
  exponentSign : String

/-- The written form of numbers in values and in messages. -/
def valueStyle : Style where
  plainFrom := -5
  plainBelow := 16
  wholeEnd := ".0"
  exponentSign := "+"

/-- Lays out a positive decimal that has no zeros at its end. -/
def Style.layout (style : Style) (d : Decimal) : String :=
  let digits := Nat.toDigits 10 d.digits
  let leading := d.exponent + digits.length - 1
  if style.plainFrom ≤ leading ∧ leading < style.plainBelow then
    if 0 ≤ d.exponent then
      String.ofList (digits ++ List.replicate d.exponent.toNat '0') ++ style.wholeEnd
    else if 0 ≤ leading then
      String.ofList (digits.take (leading + 1).toNat ++ '.' :: digits.drop (leading + 1).toNat)
    else
      String.ofList ('0' :: '.' :: (List.replicate (-leading - 1).toNat '0' ++ digits))
  else
    let fraction := if digits.length ≤ 1 then [] else '.' :: digits.drop 1
    let sign := if leading < 0 then "-" else style.exponentSign
    String.ofList (digits.take 1 ++ fraction) ++ "e" ++ sign ++ toString leading.natAbs

end Decimal

namespace Double

/-- The written form of a double; `null` for what is not a number. -/
def toText (x : Double) : String :=
  let sign := if x.isNegative then "-" else ""
  if !x.isFinite then "null"
  else if x.isZero then sign ++ "0.0"
  else sign ++ Decimal.valueStyle.layout (Decimal.Binary.ofDouble x).shortest

end Double

end EvidenceFlow
