import ParenCalc.Text.CodePoint
/-!
# Blanks

The 29 code points that separate tokens: the controls from tab to carriage return, the four
information separators, the spaces of Unicode and its line and paragraph separators.
-/
set_option autoImplicit false

namespace ParenCalc

def blankRanges : List (Nat × Nat) := [
  (0x9, 0xD), (0x1C, 0x20), (0x85, 0x85), (0xA0, 0xA0),
  (0x1680, 0x1680), (0x2000, 0x200A), (0x2028, 0x2029), (0x202F, 0x202F),
  (0x205F, 0x205F), (0x3000, 0x3000)]

def CodePoint.isBlank (c : CodePoint) : Bool := c.inRanges blankRanges

/-- The blanks that give room: all but the four information separators. -/
def CodePoint.isSpacing (c : CodePoint) : Bool := c.isBlank && !(0x1C ≤ c.val && c.val ≤ 0x1F)

/-- Blanks of the byte level: those below `80` that a request line may be padded with. -/
def isBlankByte (b : UInt8) : Bool := b = 32 || (9 ≤ b && b ≤ 13)

namespace Text

def isBlank (t : Text) : Bool := t.all CodePoint.isBlank

/-- The text without what `drops` accepts at its two ends. -/
def trimmed (drops : CodePoint → Bool) (t : Text) : Text :=
  ((t.dropWhile drops).reverse.dropWhile drops).reverse

def trim (t : Text) : Text := trimmed CodePoint.isBlank t

end Text

end ParenCalc
