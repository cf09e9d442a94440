/-!
# Written integers

Integers in plain digits, with an optional sign. A number that does not fit the given range is refused.
-/

namespace EvidenceFlow.Text

/-- The value of digits, the leading one first. -/
def digitsValue (digits : List Char) : Nat :=
  digits.foldl (fun value c => 10 * value + (c.toNat - 48)) 0

/-- The natural number that one digit or more write. -/
def natOfDigits? (digits : List Char) : Option Nat :=
  if digits.isEmpty || !digits.all Char.isDigit then none else some (digitsValue digits)

/-- The characters without a plus in front. -/
def dropPlus : List Char → List Char
  | '+' :: rest => rest
  | chars => chars

/-- The natural number up to a limit that the text writes, perhaps with a plus. -/
def parseNat? (limit : Nat) (text : String) : Option Nat :=
  (natOfDigits? (dropPlus text.toList)).filter (· ≤ limit)

/-- The integer between two bounds that the text writes, perhaps with a sign. -/
def parseInt? (least greatest : Int) (text : String) : Option Int :=
  let value? : Option Int :=
    match text.toList with
    | '-' :: digits => (natOfDigits? digits).map fun n => -(n : Int)
    | chars => (natOfDigits? (dropPlus chars)).map fun n => (n : Int)
  value?.filter fun value => least ≤ value ∧ value ≤ greatest

end EvidenceFlow.Text
