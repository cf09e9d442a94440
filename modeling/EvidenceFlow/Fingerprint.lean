import EvidenceFlow.Evidence
import EvidenceFlow.Filter
import EvidenceFlow.Json.Printer

/-!
# Fingerprints

A fingerprint is what a filter sees of the evidence: the weight, the lower-case name and the text of
each value that it includes. Heavier parts come first, and parts of one weight stay in the order of
the evidence. Results and sightings are kept under fingerprints, so evidence that an element does not
consume never tells two requests apart.
-/

namespace EvidenceFlow

open Text

/-- One part of a fingerprint. -/
structure Fingerprint.Part where
  /-- The weight of the name. -/
  weight : Int
  /-- The name in lower case. -/
  name : String
  /-- The text of the value. -/
  value : String
deriving DecidableEq, Repr, Hashable, Inhabited

/-- The parts by descending weight. -/
structure Fingerprint where
  /-- The parts. -/
  parts : List Fingerprint.Part
deriving DecidableEq, Repr, Hashable, Inhabited

namespace Json

/-- The text by which values are compared: a text as it is, anything else as it is written. -/
def canonicalText : Json → String
  | str s => s
  | other => other.compact

end Json

namespace Fingerprint

/-- The part of a named value. -/
def Part.of (weight : Int) (name : String) (value : Json) : Part :=
  ⟨weight, lowercase name, value.canonicalText⟩

/-- Puts parts in order of weight, heavier first; parts of one weight keep their order. -/
def ofParts (parts : List Part) : Fingerprint :=
  ⟨parts.mergeSort fun a b => b.weight ≤ a.weight⟩

/-- The fingerprint of weighted values given one by one. -/
def ofWeighted (values : List (Int × String × Json)) : Fingerprint :=
  ofParts (values.map fun value => .of value.1 value.2.1 value.2.2)

/-- The part that a filter sees in an entry of evidence. -/
def partOf? (filter : Filter) (entry : Evidence.Entry) : Option Part :=
  (filter.weight? entry.key).map fun weight => .of weight entry.key entry.value

/-- The fingerprint of the evidence under a filter. -/
def ofEvidence (filter : Filter) (evidence : Evidence) : Fingerprint :=
  ofParts (evidence.entries.filterMap (partOf? filter))

/-- The number of parts. -/
def size (key : Fingerprint) : Nat := key.parts.length

/-- The parts for people: names and values. -/
def toText (key : Fingerprint) : String :=
  "|".intercalate (key.parts.map fun part => part.name ++ "=" ++ part.value)

/-- How the fingerprint is shown. -/
def shown (key : Fingerprint) : String :=
  shownList (key.parts.map fun part =>
    "(" ++ ", ".intercalate [toString part.weight, quoted part.name, quoted part.value] ++ ")")

/-- The order of parts: by weight, then name, then value. -/
def Part.compare (a b : Part) : Ordering :=
  (Ord.compare a.weight b.weight).then
    ((Ord.compare a.name b.name).then (Ord.compare a.value b.value))

/-- The order of lists of parts: by the first difference, a list before its continuations. -/
def compareParts : List Part → List Part → Ordering
  | [], [] => .eq
  | [], _ :: _ => .lt
  | _ :: _, [] => .gt
  | a :: as, b :: bs => (a.compare b).then (compareParts as bs)

end Fingerprint

end EvidenceFlow
