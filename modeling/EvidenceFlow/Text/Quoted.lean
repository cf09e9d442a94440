import EvidenceFlow.Text.Quoted.Table

/-!
# Quoted texts and described records

The form in which values are shown to people who look for a fault. A text stands in double quotes,
with backslashes before quotes and backslashes and with escapes for what has no glyph. A record shows
its name and its fields, a list its items.
-/

namespace EvidenceFlow.Text

/-- The digits of a number in base sixteen, small letters. -/
def hexDigits (n : Nat) : List Char :=
  Nat.toDigits 16 n

/-- Whether the character is written as its code point between quotes. -/
def isEscapedByCode (c : Char) : Bool :=
  inRanges extendingRanges c.toNat || inRanges unprintableRanges c.toNat

/-- One character between quotes. -/
def quotedChar (c : Char) : List Char :=
  if c = '\x00' then ['\\', '0']
  else if c = '\t' then ['\\', 't']
  else if c = '\r' then ['\\', 'r']
  else if c = '\n' then ['\\', 'n']
  else if c = '"' ∨ c = '\\' then ['\\', c]
  else if 0x20 ≤ c.toNat ∧ c.toNat < 0x7F then [c]
  else if isEscapedByCode c then ['\\', 'u', '\x7b'] ++ hexDigits c.toNat ++ ['\x7d']
  else [c]

/-- The text between double quotes. -/
def quoted (text : String) : String :=
  String.ofList ('"' :: (text.toList.flatMap quotedChar ++ ['"']))

/-- A list of shown items between brackets. -/
def shownList (items : List String) : String :=
  "[" ++ ", ".intercalate items ++ "]"

/-- A record by its name and its shown fields. -/
def shownRecord (name : String) (fields : List (String × String)) : String :=
  name ++ " \x7b " ++ ", ".intercalate (fields.map fun field => field.1 ++ ": " ++ field.2) ++ " \x7d"

/-- A named value with one unnamed part. -/
def shownTuple (name part : String) : String :=
  name ++ "(" ++ part ++ ")"

/-- A truth value in words. -/
def shownBool (b : Bool) : String :=
  if b then "true" else "false"

end EvidenceFlow.Text
