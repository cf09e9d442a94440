import EvidenceFlow.Text.LowerCase.Table

/-!
# Lower case

Names of evidence and of properties are compared in lower case, over all of Unicode. The mapping is
character by character but for two cases: the dotted capital I becomes two characters, and a capital
sigma takes its final form at the end of a word, that is after a letter and before none, looking
through marks and apostrophes on either side.
-/

namespace EvidenceFlow.Text

/-- Whether the character is looked through when a neighbouring letter is sought. -/
def isCaseIgnorable (c : Char) : Bool :=
  inRanges caseIgnorableRanges c.toNat

/-- Whether the character is a letter with a case. -/
def isCased (c : Char) : Bool :=
  inRanges casedRanges c.toNat

/-- Whether the nearest character that counts is a letter. -/
def letterNext (chars : List Char) : Bool :=
  match chars.dropWhile isCaseIgnorable with
  | [] => false
  | c :: _ => isCased c

/-- The small letter of one character by the table; characters without one stay. -/
def lowerByTable (c : Char) : Char :=
  match caseRuns.find? (·.covers c.toNat) with
  | some run => Char.ofNat (run.lower c.toNat)
  | none => c

/-- The small letter of an ASCII capital; other characters stay. -/
def lowerAscii (c : Char) : Char :=
  if 'A' ≤ c ∧ c ≤ 'Z' then Char.ofNat (c.toNat + 32) else c

/-- The lower case of one character between `before`, nearest first, and `after`. -/
def lowerChar (before : List Char) (c : Char) (after : List Char) : List Char :=
  if c.toNat < 0x80 then [lowerAscii c]
  else if c = 'İ' then ['i', '\u0307']
  else if c = 'Σ' then [if letterNext before && !letterNext after then 'ς' else 'σ']
  else [lowerByTable c]

/-- The lower case of a text whose characters `before`, nearest first, are already behind. -/
def lowerFrom (before : List Char) : List Char → List Char
  | [] => []
  | c :: after => lowerChar before c after ++ lowerFrom (c :: before) after

/-- The text in lower case. -/
def lowercase (text : String) : String :=
  String.ofList (lowerFrom [] text.toList)

/-- Whether two texts are equal up to the case of ASCII letters. -/
def eqUpToAsciiCase (a b : String) : Bool :=
  a.toList.map lowerAscii == b.toList.map lowerAscii

/-- Each text is equal to itself. -/
theorem eqUpToAsciiCase_refl (a : String) : eqUpToAsciiCase a a = true := by
  simp [eqUpToAsciiCase]

/-- The order of the texts does not matter. -/
theorem eqUpToAsciiCase_comm (a b : String) : eqUpToAsciiCase a b = eqUpToAsciiCase b a := by
  simp [eqUpToAsciiCase, Bool.beq_comm]

end EvidenceFlow.Text
