/-!
# Spans of time

Spans are counted in nanoseconds and shown in the largest unit of which they hold at least one.
-/

namespace EvidenceFlow

/-- A span of time. -/
structure Duration where
  /-- Its length in nanoseconds. -/
  nanos : Nat
deriving DecidableEq, Repr, Inhabited

namespace Duration

/-- A span of whole milliseconds. -/
def ofMillis (n : Nat) : Duration := ⟨n * 1000000⟩

/-- A span of whole microseconds. -/
def ofMicros (n : Nat) : Duration := ⟨n * 1000⟩

/-- The whole milliseconds of the span. -/
def millis (d : Duration) : Nat := d.nanos / 1000000

/-- The whole seconds of the span. -/
def seconds (d : Duration) : Nat := d.nanos / 1000000000

/-- The nanoseconds beyond the whole seconds. -/
def subsecond (d : Duration) : Nat := d.nanos % 1000000000

/-- Whether the span has no length. -/
def isZero (d : Duration) : Bool := d.nanos == 0

/-- The digits behind the point of `part / 10 ^ places`, zeros at the end dropped. -/
def fractionDigits (part places : Nat) : List Char :=
  let digits := Nat.toDigits 10 part
  let padded := List.replicate (places - digits.length) '0' ++ digits
  (padded.reverse.dropWhile (· == '0')).reverse

/-- The span in a unit of `10 ^ places` nanoseconds. -/
def shownIn (d : Duration) (places : Nat) (unit : String) : String :=
  let whole := d.nanos / Nat.pow 10 places
  let part := d.nanos % Nat.pow 10 places
  let fraction := if part = 0 then [] else fractionDigits part places
  let point := if fraction.isEmpty then "" else "."
  toString whole ++ point ++ String.ofList fraction ++ unit

/-- The span in the largest unit of which it holds at least one. -/
def shown (d : Duration) : String :=
  if 1000000000 ≤ d.nanos then d.shownIn 9 "s"
  else if 1000000 ≤ d.nanos then d.shownIn 6 "ms"
  else if 1000 ≤ d.nanos then d.shownIn 3 "µs"
  else d.shownIn 0 "ns"

end Duration

end EvidenceFlow
