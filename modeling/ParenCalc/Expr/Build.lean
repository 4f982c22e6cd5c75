import ParenCalc.Expr
/-!
# Building expressions

A datum is taken as an expression by its shape: the head of a list says which form it is, and the
form's own rule is checked before any part is built.  Parts are built from the left, and the first
fault is the answer.

Building descends into a datum and needs room for it: two units for each `define` or `if` around a
part and three for each operator.  Showing a list in a message takes one unit for each nesting.  How
much room there is depends on the caller: each call on the way to building has taken one unit.
-/
set_option autoImplicit false

namespace ParenCalc

namespace Failure

def malformed {α : Type} (cause : Malformed) : Except Failure α :=
  .error (.fault (.malformed cause))

end Failure

namespace Expr

/-- The room that building starts with where nothing else has been called for it. -/
def fullRoom : Nat := 991

mutual

def build (room : Nat) (datum : Datum) : Except Failure Expr :=
  if room = 0 then .error (.misuse .noRoom)
  else
    match datum with
    | .number n => .ok (.literal n)
    | .symbol s => .ok (.reference s)
    | .foreign (.truth b) => Failure.malformed (.unsupportedLiteral b)
    | .foreign v => Failure.malformed (.unbuildable (.foreign v))
    | .list [] => Failure.malformed .emptyForm
    | .list (.symbol head :: tail) =>
      if head = Symbol.define then buildDefinition (room - 2) tail
      else if head = Symbol.cond then buildConditional (room - 2) tail
      else
        match Operator.ofSymbol? head with
        | none => Failure.malformed (.unknownHead head)
        | some op =>
          if op.accepts tail.length then
            (buildAll (room - 3) tail).map (Expr.application head)
          else Failure.malformed (.arity op tail.length)
    | .list (head :: _) =>
      if head.depth < room then Failure.malformed (.headNoSymbol head)
      else .error (.misuse .noRoom)

def buildDefinition (room : Nat) : List Datum → Except Failure Expr
  | [.symbol name, value] =>
    if name.isReserved then Failure.malformed (.reserved name)
    else (build room value).map (Expr.definition name)
  | [target, _] =>
    if target.depth < room then Failure.malformed (.defineTarget target)
    else .error (.misuse .noRoom)
  | _ => Failure.malformed .defineShape

def buildConditional (room : Nat) : List Datum → Except Failure Expr
  | [test, yes, no] =>
    match build room test with
    | .error failure => .error failure
    | .ok test =>
      match build room yes with
      | .error failure => .error failure
      | .ok yes => (build room no).map (Expr.conditional test yes)
  | _ => Failure.malformed .condShape

def buildAll (room : Nat) : List Datum → Except Failure (List Expr)
  | [] => .ok []
  | d :: rest =>
    match build room d with
    | .error failure => .error failure
    | .ok e => (buildAll room rest).map (e :: ·)

end

end Expr

end ParenCalc
