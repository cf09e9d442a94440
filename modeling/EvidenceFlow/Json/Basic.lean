import EvidenceFlow.Decimal.Double

/-!
# Values

The values that evidence and properties carry. Integers and doubles are kept apart, and the fields of
an object stand in the order of their names, each name once.
-/

namespace EvidenceFlow

/-- A value. -/
inductive Json where
  /-- No value. -/
  | null
  /-- A truth value. -/
  | bool (b : Bool)
  /-- An integer of at most 64 bits. -/
  | int (n : Int)
  /-- A number written with a point or an exponent. -/
  | real (x : Double)
  /-- A text. -/
  | str (s : String)
  /-- A sequence of values. -/
  | arr (items : List Json)
  /-- Named values, each name once; in objects that are read, by ascending name. -/
  | obj (fields : List (String × Json))
deriving Inhabited

namespace Json

/-- The largest unsigned integer of 64 bits. -/
def maxUnsigned : Nat := 18446744073709551615

/-- The largest signed integer of 64 bits. -/
def maxSigned : Nat := 9223372036854775807

/-- Sets a field in a list of fields by ascending name. -/
def setField (name : String) (value : Json) : List (String × Json) → List (String × Json)
  | [] => [(name, value)]
  | (other, held) :: rest =>
    if name < other then (name, value) :: (other, held) :: rest
    else if name = other then (name, value) :: rest
    else (other, held) :: setField name value rest

/-- The object with the given fields; of several fields of one name the last counts. -/
def object (fields : List (String × Json)) : Json :=
  obj (fields.foldl (fun sorted field => setField field.1 field.2 sorted) [])

/-- The field of an object. -/
def field? (name : String) : Json → Option Json
  | obj fields => fields.lookup name
  | _ => none

/-- The text, if the value is one. -/
def asText? : Json → Option String
  | str s => some s
  | _ => none

mutual

/-- Equality of values. An integer is never equal to a double; both zeros are equal. -/
def same : Json → Json → Bool
  | null, null => true
  | bool a, bool b => a == b
  | int a, int b => a == b
  | real a, real b => a.sameValue b
  | str a, str b => a == b
  | arr a, arr b => sameItems a b
  | obj a, obj b => sameFields a b
  | _, _ => false

/-- Equality of sequences, item by item. -/
def sameItems : List Json → List Json → Bool
  | [], [] => true
  | a :: as, b :: bs => same a b && sameItems as bs
  | _, _ => false

/-- Equality of fields, in order. -/
def sameFields : List (String × Json) → List (String × Json) → Bool
  | [], [] => true
  | (m, a) :: as, (n, b) :: bs => m == n && same a b && sameFields as bs
  | _, _ => false

end

end Json

end EvidenceFlow
