import ParenCalc.Interpreter
import ParenCalc.Text.Lines
import ParenCalc.Text.Utf8
/-!
# The prompt

An interactive run prompts for a line, answers it with a value or an error, and goes on with the
same interpreter until the input ends.  Blank lines get no answer.  The input is read portion by
portion and has to be UTF-8.
-/
set_option autoImplicit false

namespace ParenCalc

/-- How a run of the program ends: its exit code and what it has written. -/
structure Outcome where
  code : Nat
  output : Text
  errors : Text
deriving DecidableEq

def Failure.line : Failure → Text
  | .fault cause => cause.report.line
  | .misuse _ => Kind.internal.name

namespace Prompt

def mark : Text := "lisp> "

def answer : Except Failure Number → Text
  | .ok value => value.literal
  | .error failure => failure.line

def reply (line : Text) (i : Interpreter) : Text × Interpreter :=
  if Text.isBlank line then ([], i)
  else
    let (result, i) := i.eval line
    (answer result ++ "\n", i)

def transcriptOf : List Text → Interpreter → Text
  | [], _ => mark ++ "\n"
  | line :: rest, i =>
    let (written, i) := reply line i
    mark ++ written ++ transcriptOf rest i

/-- Everything that is written while the input is read. -/
def transcript (input : Text) : Text := transcriptOf (Text.lines input) .fresh

/-- The run of a prompt on some input.  It ends well with the input, whatever the lines came to. -/
def outcome (input : Text) : Outcome := ⟨0, transcript input, []⟩

/-- The number of bytes in a portion of the input. -/
def portionSize : Nat := 8192

/-- The input in portions, all of them full but the last. -/
def portions (bytes : List UInt8) : List (List UInt8) :=
  if bytes = [] then []
  else bytes.take portionSize :: portions (bytes.drop portionSize)
termination_by bytes.length
decreasing_by
  rename_i h
  have := List.length_pos_iff.mpr h
  rw [List.length_drop, portionSize]
  omega

/-- The run of a prompt on some bytes, unless they are no UTF-8. -/
def run (bytes : List UInt8) : Except Utf8.Refusal Text :=
  (Utf8.decodePortions [] (portions bytes)).map fun input => transcript (Text.foldLineEnds input)

end Prompt

end ParenCalc
