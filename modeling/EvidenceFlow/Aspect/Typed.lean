import EvidenceFlow.Aspect
import EvidenceFlow.Decimal.Written

/-!
# Typed reads

A property can be read as one of a few types. Nothing is converted but integers to doubles; a value of
another type is refused with what it is and what was wanted.
-/

namespace EvidenceFlow

open Text

/-- A type as which a property can be read. -/
inductive ValueType where
  /-- Truth values. -/
  | bool
  /-- Signed integers of 64 bits. -/
  | i64
  /-- Unsigned integers of 64 bits. -/
  | u64
  /-- Unsigned integers of 8 bits. -/
  | u8
  /-- Doubles. -/
  | f64
  /-- Texts. -/
  | text
  /-- Sequences of texts. -/
  | texts
deriving DecidableEq, Repr

namespace ValueType

/-- The name of the type in faults. -/
def name : ValueType → String
  | bool => "bool"
  | i64 => "i64"
  | u64 => "u64"
  | u8 => "u8"
  | f64 => "f64"
  | text => "alloc::string::String"
  | texts => "alloc::vec::Vec<alloc::string::String>"

/-- What is wanted by the type. -/
def expected : ValueType → String
  | bool => "a boolean"
  | text => "a string"
  | texts => "a sequence"
  | number => number.name

/-- What a value is, in words. -/
def describe : Json → String
  | .null => "null"
  | .bool b => "boolean \x60" ++ shownBool b ++ "\x60"
  | .int n => "integer \x60" ++ toString n ++ "\x60"
  | .real x => "floating point \x60" ++ x.toText ++ "\x60"
  | .str s => "string " ++ quoted s
  | .arr _ => "sequence"
  | .obj _ => "map"

/-- Refuses a value of another type. -/
def wrongType (type : ValueType) (value : Json) : Except String Json :=
  .error ("invalid type: " ++ describe value ++ ", expected " ++ type.expected)

/-- Takes an integer within bounds. -/
def within (type : ValueType) (least greatest : Int) : Json → Except String Json
  | .int n =>
    if least ≤ n ∧ n ≤ greatest then .ok (.int n)
    else .error ("invalid value: " ++ describe (.int n) ++ ", expected " ++ type.expected)
  | value => type.wrongType value

/-- Takes a text. -/
def asText : Json → Except String Json
  | .str s => .ok (.str s)
  | value => text.wrongType value

/-- Takes a value of the type, or says what is wrong with it. -/
def take : ValueType → Json → Except String Json
  | bool, .bool b => .ok (.bool b)
  | i64, value => i64.within (-9223372036854775808) 9223372036854775807 value
  | u64, value => u64.within 0 18446744073709551615 value
  | u8, value => u8.within 0 255 value
  | f64, .real x => .ok (.real x)
  | f64, .int n => .ok (.real (.ofInt n))
  | text, value => asText value
  | texts, .arr items => (items.mapM asText).map .arr
  | type, value => type.wrongType value

end ValueType

/-- The value of a property as a value of the type. -/
def Aspect.getAs (a : Aspect) (tasks : Tasks) (type : ValueType) (name : String) :
    Except Fault Json := do
  let value ← a.get tasks name
  match type.take value with
  | .ok value => return value
  | .error reason => throw (.propertyType name type.name reason)

end EvidenceFlow
