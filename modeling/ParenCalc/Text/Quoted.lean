import ParenCalc.Text.Hex
import ParenCalc.Text.Printable
/-!
# Quoted text

How a message shows a text that may hold anything: between quotation marks, with marks,
backslashes and everything unprintable escaped.  The result is printable throughout, so a quoted
text never breaks a line.
-/
set_option autoImplicit false

namespace ParenCalc.Text

/-- The mark around a quoted text: single, unless the text holds single marks and no double one. -/
def quotationMark (t : Text) : CodePoint :=
  if t.contains (CodePoint.ofChar '\x27') && !t.contains (CodePoint.ofChar '\x22')
  then '\x22' else '\x27'

/-- One code point between quotation marks of the given kind. -/
def escaped (mark c : CodePoint) : Text :=
  if c = mark ∨ c = '\\' then ['\\', c]
  else if c = '\n' then ['\\', 'n']
  else if c = '\r' then ['\\', 'r']
  else if c = '\t' then ['\\', 't']
  else if c.isPrintable then [c]
  else if c.val ≤ 0xFF then '\\' :: 'x' :: hex 2 c.val
  else if c.val ≤ 0xFFFF then '\\' :: 'u' :: hex 4 c.val
  else '\\' :: 'U' :: hex 8 c.val

def quoted (t : Text) : Text :=
  let mark := quotationMark t
  mark :: t.flatMap (escaped mark) ++ [mark]

end ParenCalc.Text
