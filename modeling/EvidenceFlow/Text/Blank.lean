import EvidenceFlow.Text.CodeRange

/-!
# Blanks

The white space of Unicode, and the trimming of texts by it.
-/

namespace EvidenceFlow.Text

/-- The code points that are white space. -/
def blankRanges : List CodeRange :=
  [(0x09, 0x0D), (0x20, 0x20), (0x85, 0x85), (0xA0, 0xA0), (0x1680, 0x1680), (0x2000, 0x200A),
    (0x2028, 0x2029), (0x202F, 0x202F), (0x205F, 0x205F), (0x3000, 0x3000)]

/-- Whether the character is white space. -/
def isBlank (c : Char) : Bool :=
  inRanges blankRanges c.toNat

/-- The text without the blanks at either end. -/
def trim (text : String) : String :=
  String.ofList ((text.toList.dropWhile isBlank).reverse.dropWhile isBlank).reverse

/-- Whether the text holds blanks only. -/
def isAllBlank (text : String) : Bool :=
  text.toList.all isBlank

end EvidenceFlow.Text
