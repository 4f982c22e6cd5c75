import ParenCalc.Text.CodePoint
/-!
# Lines

A line ends at a line feed.  `lines` keeps the line feeds, so that joining the lines gives the text
back; `foldLineEnds` is what reading a file or the standard input as text does to the other two
line ends.
-/
set_option autoImplicit false

namespace ParenCalc.Text

/-- Both `\r\n` and a lone `\r` become one line feed. -/
def foldLineEnds : Text → Text
  | [] => []
  | [c] => [if c = '\r' then '\n' else c]
  | c :: d :: rest =>
    if c = '\r' then
      if d = '\n' then foldLineEnds (d :: rest) else '\n' :: foldLineEnds (d :: rest)
    else c :: foldLineEnds (d :: rest)

/-- The lines of a text, each with its line feed; only the last may lack one, and it is not
empty. -/
def lines : Text → List Text
  | [] => []
  | c :: rest =>
    if c = '\n' then [c] :: lines rest
    else
      match lines rest with
      | [] => [[c]]
      | line :: more => (c :: line) :: more

end ParenCalc.Text
