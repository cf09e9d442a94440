import EvidenceFlow.Json.Basic
import EvidenceFlow.Decimal.Reading
import EvidenceFlow.Text.Integer

/-!
# Tokens of written values

A written value is cut into marks, texts and words; words are the literals and the numbers. The cut is
one pass over the characters.
-/

namespace EvidenceFlow.Json

/-- A token of a written value. -/
inductive Token where
  /-- One of the marks that give the value its shape. -/
  | mark (c : Char)
  /-- A text, escapes resolved. -/
  | text (s : String)
  /-- A run of other characters: a literal or a number. -/
  | word (s : List Char)
deriving DecidableEq, Repr

namespace Token

/-- Where the pass stands inside or between tokens; characters read so far stand in reverse. -/
inductive Mode where
  /-- Between tokens. -/
  | between
  /-- In a word. -/
  | word (read : List Char)
  /-- In a text, perhaps after the first half of a pair of code units. -/
  | text (read : List Char) (half : Option Nat)
  /-- In a text, after a backslash. -/
  | escape (read : List Char) (half : Option Nat)
  /-- In a text, in the digits of a code unit, of which `left` are to come. -/
  | unit (read : List Char) (half : Option Nat) (left value : Nat)

/-- Whether the character is one of the marks. -/
def isMark (c : Char) : Bool :=
  c == '\x7b' || c == '\x7d' || c == '[' || c == ']' || c == ':' || c == ','

/-- Whether the character is a blank between tokens. -/
def isSpace (c : Char) : Bool :=
  c == ' ' || c == '\n' || c == '\r' || c == '\t'

/-- The value of a hexadecimal digit. -/
def hexValue? (c : Char) : Option Nat :=
  if '0' ≤ c ∧ c ≤ '9' then some (c.toNat - 48)
  else if 'a' ≤ c ∧ c ≤ 'f' then some (c.toNat - 87)
  else if 'A' ≤ c ∧ c ≤ 'F' then some (c.toNat - 55)
  else none

/-- The character that a letter after a backslash stands for. -/
def escaped? (c : Char) : Option Char :=
  match c with
  | '"' => some '"'
  | '\\' => some '\\'
  | '/' => some '/'
  | 'b' => some '\x08'
  | 'f' => some '\x0c'
  | 'n' => some '\n'
  | 'r' => some '\r'
  | 't' => some '\t'
  | _ => none

/-- Takes a finished code unit into a text: halves of a pair wait for each other. -/
def takeUnit? (read : List Char) (half : Option Nat) (unit : Nat) : Option Mode :=
  if 0xD800 ≤ unit ∧ unit < 0xDC00 then
    match half with
    | none => some (.text read (some unit))
    | some _ => none
  else if 0xDC00 ≤ unit ∧ unit < 0xE000 then
    match half with
    | none => none
    | some high =>
      some (.text (Char.ofNat (0x10000 + (high - 0xD800) * 0x400 + (unit - 0xDC00)) :: read) none)
  else
    match half with
    | none => some (.text (Char.ofNat unit :: read) none)
    | some _ => none

/-- One character between tokens. -/
def begin (done : List Token) (c : Char) : Mode × List Token :=
  if isMark c then (.between, .mark c :: done)
  else if isSpace c then (.between, done)
  else if c = '"' then (.text [] none, done)
  else (.word [c], done)

/-- One character of the pass; `none` if no value is written so. -/
def step (mode : Mode) (done : List Token) (c : Char) : Option (Mode × List Token) :=
  match mode with
  | .between => some (begin done c)
  | .word read =>
    if isMark c || isSpace c || c == '"' then some (begin (.word read.reverse :: done) c)
    else some (.word (c :: read), done)
  | .text read half =>
    if c = '\\' then some (.escape read half, done)
    else if half.isSome || c.toNat < 0x20 then none
    else if c = '"' then some (.between, .text (String.ofList read.reverse) :: done)
    else some (.text (c :: read) none, done)
  | .escape read half =>
    if c = 'u' then some (.unit read half 4 0, done)
    else if half.isSome then none
    else (escaped? c).map fun e => (.text (e :: read) none, done)
  | .unit read half left value =>
    (hexValue? c).bind fun digit =>
      let value := value * 16 + digit
      if left ≤ 1 then (takeUnit? read half value).map fun mode => (mode, done)
      else some (.unit read half (left - 1) value, done)

/-- The rest of the pass. -/
def passFrom (mode : Mode) (done : List Token) : List Char → Option (List Token)
  | [] =>
    match mode with
    | .between => some done.reverse
    | .word read => some (.word read.reverse :: done).reverse
    | _ => none
  | c :: rest => (step mode done c).bind fun next => passFrom next.1 next.2 rest

/-- The tokens of a written value. -/
def scan (chars : List Char) : Option (List Token) :=
  passFrom .between [] chars

end Token

/-- Digits taken into a number of 64 bits, and how many were left out once one did not fit. -/
def takeDigits : List Char → Nat → Nat × Nat
  | [], value => (value, 0)
  | c :: rest, value =>
    let next := value * 10 + (c.toNat - 48)
    if next ≤ maxUnsigned then takeDigits rest next else (value, (c :: rest).length)

/-- Splits an exponent, mark included, into its value; `none` if it is not one. -/
def exponent? : List Char → Option Int
  | [] => some 0
  | mark :: rest =>
    if mark = 'e' ∨ mark = 'E' then
      let (negative, digits) :=
        match rest with
        | '-' :: digits => (true, digits)
        | '+' :: digits => (false, digits)
        | digits => (false, digits)
      (Text.natOfDigits? digits).map fun n => if negative then -(n : Int) else n
    else none

/-- A number without its sign, read from a word. -/
def magnitude? (chars : List Char) (negative : Bool) : Option Json :=
  let whole := chars.takeWhile Char.isDigit
  let rest := chars.dropWhile Char.isDigit
  if whole.isEmpty || (whole.length > 1 && whole.head? == some '0') then none
  else
    let (value, dropped) := takeDigits whole 0
    let signed (x : Double) : Json := .real (if negative then x.negate else x)
    match rest with
    | [] =>
      if dropped = 0 then
        if !negative then some (.int value)
        else if value = 0 then some (.real (Double.ofInt 0).negate)
        else if value ≤ maxSigned + 1 then some (.int (-(value : Int)))
        else some (signed (Double.ofInt value))
      else (Double.scaled? value dropped).map signed
    | '.' :: rest =>
      let fraction := rest.takeWhile Char.isDigit
      if fraction.isEmpty then none
      else
        let (value, left) := takeDigits fraction value
        (exponent? (rest.dropWhile Char.isDigit)).bind fun e =>
          (Double.scaled? value (e + dropped - (fraction.length - left : Nat))).map signed
    | rest => (exponent? rest).bind fun e => (Double.scaled? value (e + dropped)).map signed

/-- The literal or number that a word stands for. -/
def ofWord? (word : List Char) : Option Json :=
  if word = "null".toList then some .null
  else if word = "true".toList then some (.bool true)
  else if word = "false".toList then some (.bool false)
  else
    match word with
    | '-' :: rest => magnitude? rest true
    | rest => magnitude? rest false

end EvidenceFlow.Json
