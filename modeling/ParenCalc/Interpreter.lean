import ParenCalc.Datum.Reader
import ParenCalc.Eval
import ParenCalc.Expr.Build
/-!
# The interpreter

Reading, building and evaluating a text in one go.  What is read is built in the room that is left
there.  An interpreter keeps the bindings of one root frame from text to text.  It evaluates all forms
of a text itself, and for a single form it calls `interpret`, so that building has one unit less.
-/
set_option autoImplicit false

namespace ParenCalc

/-- The beginning of a text that a message about the whole of it quotes. -/
def Text.excerpt (t : Text) : Text := t.take 80

/-- A lack of room is a fault of the text. -/
def Failure.inText (text : Text) : Failure → Failure
  | .misuse .noRoom => .fault (.malformed (.tooDeep text.excerpt))
  | failure => failure

def Datum.eval (room : Nat) (text : Text) (d : Datum) (s : Scope) :
    Except Failure Number × Scope :=
  match Expr.build room d with
  | .error failure => (.error (failure.inText text), s)
  | .ok e => e.eval s

def interpret (room : Nat) (text : Text) (s : Scope) : Except Failure Number × Scope :=
  match Datum.read text with
  | .error cause => (.error (.fault (.malformed cause)), s)
  | .ok d => d.eval room text s

/-- Builds and evaluates data in order, up to the first failure; `fault` is the one that the data
end with. -/
def Datum.evalEach (room : Nat) (text : Text) (fault : Option Malformed) :
    List Datum → Scope → Except Failure (List Number) × Scope
  | [], s =>
    match fault with
    | some cause => (.error (.fault (.malformed cause)), s)
    | none => (.ok [], s)
  | d :: rest, s =>
    match d.eval room text s with
    | (.error failure, s) => (.error failure, s)
    | (.ok value, s) =>
      match evalEach room text fault rest s with
      | (.ok values, s) => (.ok (value :: values), s)
      | (.error failure, s) => (.error failure, s)

/-- All forms of a text evaluated in order, up to the first failure. -/
def interpretAll (room : Nat) (text : Text) (s : Scope) : Except Failure (List Number) × Scope :=
  let forms := (Scan.ofText text).forms
  Datum.evalEach room text forms.fault forms.data s

/-- The state of an interpreter: what its texts have defined. -/
structure Interpreter where
  frame : Frame

namespace Interpreter

def fresh : Interpreter := ⟨.empty⟩

def bindings (i : Interpreter) : List (Symbol × Number) := i.frame.entries

/-- The room that building has in `evalAll`. -/
def batchRoom : Nat := Expr.fullRoom - 1

/-- The room that building has in `eval`, where `interpret` has been called besides. -/
def formRoom : Nat := batchRoom - 1

def eval (text : Text) (i : Interpreter) : Except Failure Number × Interpreter :=
  let (result, s) := interpret formRoom text (.root i.frame)
  (result, ⟨s.frame⟩)

def evalAll (text : Text) (i : Interpreter) : Except Failure (List Number) × Interpreter :=
  let (result, s) := interpretAll batchRoom text (.root i.frame)
  (result, ⟨s.frame⟩)

/-- The bindings whose names begin with `start`, and all of them when it is absent or empty. -/
def listing (start : Option Text) (i : Interpreter) : List (Symbol × Number) :=
  match start with
  | none => i.bindings
  | some t => i.bindings.filter fun binding => t.isPrefixOf binding.1.name

/-- The value of a name.  A name that no text could write is bound to nothing. -/
def valueOf (name : Text) (i : Interpreter) : Except Failure Number :=
  match (Symbol.ofText? name).bind i.frame.get? with
  | some value => .ok value
  | none => .error (.fault (.undefined name))

end Interpreter

end ParenCalc
