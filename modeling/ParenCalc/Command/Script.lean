import ParenCalc.Command.Prompt
import ParenCalc.Server.Request
/-!
# Scripts

A script is a file of expressions.  Its values are written when all of them have been evaluated, and
nothing but the first error otherwise.
-/
set_option autoImplicit false

namespace ParenCalc

inductive FileError
  | denied
  | notFound
  | notDirectory
  | isDirectory
  | nameTooLong
deriving DecidableEq

def FileError.number : FileError → Nat
  | .notFound => 2
  | .denied => 13
  | .notDirectory => 20
  | .isDirectory => 21
  | .nameTooLong => 36

def FileError.reason : FileError → Text
  | .notFound => "No such file or directory"
  | .denied => "Permission denied"
  | .notDirectory => "Not a directory"
  | .isDirectory => "Is a directory"
  | .nameTooLong => "File name too long"

namespace Script

def parts : Text → List Text
  | [] => [[]]
  | c :: rest =>
    if c = '/' then [] :: parts rest
    else
      match parts rest with
      | [] => [[c]]
      | part :: more => (c :: part) :: more

/-- The slashes that make a path absolute: exactly two are not the same as one. -/
def rootPart (path : Text) : Text :=
  let slashes := (path.takeWhile fun c => c = CodePoint.ofChar '/').length
  if slashes = 0 then "" else if slashes = 2 then "//" else "/"

/-- A path without empty parts and without parts that stay where they are. -/
def normalized (path : Text) : Text :=
  let kept := (parts path).filter fun part => part ≠ [] ∧ part ≠ "."
  let body := rootPart path ++ Text.joined "/" kept
  if body = [] then "." else body

/-- The run of a script whose file cannot be read. -/
def unreadable (path : Text) (e : FileError) : Outcome :=
  let shown := normalized path
  ⟨2, [], "Error: cannot read " ++ shown ++ ": [Errno " ++ Text.ofNat e.number ++ "] " ++
    e.reason ++ ": " ++ Text.quoted shown ++ "\n"⟩

def evaluate (source : Text) : Outcome :=
  match (Interpreter.fresh.evalAll (Text.foldLineEnds source)).1 with
  | .ok values => ⟨0, values.flatMap fun value => value.literal ++ "\n", []⟩
  | .error failure => ⟨1, [], failure.line ++ "\n"⟩

/-- The run of a script with some bytes, unless they are no UTF-8. -/
def run (bytes : List UInt8) : Except Utf8.Refusal Outcome := (Utf8.decode bytes).map evaluate

end Script

end ParenCalc
