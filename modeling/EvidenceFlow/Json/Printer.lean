import EvidenceFlow.Json.Basic
import EvidenceFlow.Decimal.Written

/-!
# The written form of values

Values are written without blanks. In texts, quotes, backslashes and control characters are escaped
and nothing else.
-/

namespace EvidenceFlow.Json

/-- The two last hexadecimal digits of a control character. -/
def controlDigits (c : Char) : List Char :=
  if c.toNat < 16 then '0' :: Nat.toDigits 16 c.toNat else Nat.toDigits 16 c.toNat

/-- One character of a text. -/
def writtenChar (c : Char) : List Char :=
  if c = '"' ∨ c = '\\' then ['\\', c]
  else if c = '\x08' then ['\\', 'b']
  else if c = '\x0c' then ['\\', 'f']
  else if c = '\n' then ['\\', 'n']
  else if c = '\r' then ['\\', 'r']
  else if c = '\t' then ['\\', 't']
  else if c.toNat < 0x20 then ['\\', 'u', '0', '0'] ++ controlDigits c
  else [c]

/-- A text between quotes. -/
def writtenText (s : String) : String :=
  String.ofList ('"' :: (s.toList.flatMap writtenChar ++ ['"']))

mutual

/-- The written form of a value. -/
def compact : Json → String
  | null => "null"
  | bool b => if b then "true" else "false"
  | int n => toString n
  | real x => x.toText
  | str s => writtenText s
  | arr items => "[" ++ ",".intercalate (compactItems items) ++ "]"
  | obj fields => "\x7b" ++ ",".intercalate (compactFields fields) ++ "\x7d"

/-- The written forms of the items of a sequence. -/
def compactItems : List Json → List String
  | [] => []
  | item :: rest => compact item :: compactItems rest

/-- The written forms of the fields of an object. -/
def compactFields : List (String × Json) → List String
  | [] => []
  | (name, value) :: rest => (writtenText name ++ ":" ++ compact value) :: compactFields rest

end

end EvidenceFlow.Json
