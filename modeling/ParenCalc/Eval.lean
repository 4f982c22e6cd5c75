import ParenCalc.Expr
import ParenCalc.Operator.Apply
import ParenCalc.Scope
/-!
# Evaluation

An expression is evaluated in a scope and may define symbols there.  Operands are evaluated from the
left, only the chosen branch of a conditional is evaluated, and a failure keeps the definitions
made before it.
-/
set_option autoImplicit false

namespace ParenCalc.Expr

mutual

def eval : Expr → Scope → Except Failure Number × Scope
  | .literal n, s => (.ok n, s)
  | .reference x, s =>
    match s.lookup? x with
    | some value => (.ok value, s)
    | none => (.error (.fault (.undefined x.name)), s)
  | .definition x e, s =>
    match e.eval s with
    | (.ok value, s) => (.ok value, s.define x value)
    | (.error failure, s) => (.error failure, s)
  | .conditional test yes no, s =>
    match test.eval s with
    | (.ok value, s) => if value.isTruthy then yes.eval s else no.eval s
    | (.error failure, s) => (.error failure, s)
  | .application x arguments, s =>
    match Operator.ofSymbol? x with
    | none => (.error (.fault (.internal (.unknownOperator x))), s)
    | some op =>
      match evalAll arguments s with
      | (.ok values, s) => (op.apply values, s)
      | (.error failure, s) => (.error failure, s)
  | .alien d, s => (.error (.fault (.internal (.notExpression d))), s)

def evalAll : List Expr → Scope → Except Failure (List Number) × Scope
  | [], s => (.ok [], s)
  | e :: rest, s =>
    match e.eval s with
    | (.error failure, s) => (.error failure, s)
    | (.ok value, s) =>
      match evalAll rest s with
      | (.ok values, s) => (.ok (value :: values), s)
      | (.error failure, s) => (.error failure, s)

end

end ParenCalc.Expr
