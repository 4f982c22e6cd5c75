import ParenCalc.Fault
/-!
# Applying operators

Arithmetic folds its operands from the left.  Only the end of a fold is held to the admissible
numbers, so a wide integer or an infinity may come and go on the way.  A comparison yields one or
zero.
-/
set_option autoImplicit false

namespace ParenCalc

namespace Arithmetic

/-- One step of a fold; nothing when an integer is past the greatest double where a double is
needed.  A division is by a number other than zero. -/
def combine? : (op : Arithmetic) → (a b : Number) → (op = .div → b.isZero = false) → Option Number
  | .add, a, b, _ => a.add? b
  | .sub, a, b, _ => a.sub? b
  | .mul, a, b, _ => a.mul? b
  | .div, a, b, notZero => a.div? b (notZero rfl)

/-- A result that is admissible, or why it is not. -/
def settle (op : Arithmetic) (operands : List Number) (result : Number) :
    Except ArithmeticFault Number :=
  if result.isAdmissible then .ok result
  else
    match result with
    | .int _ => .error (.integerOverflow op operands)
    | .float _ => .error (.numericOverflow op operands)

/-- The fold of `operands`, of which `rest` is still to come after the value `acc`. -/
def fold (op : Arithmetic) (operands : List Number) (acc : Number) :
    List Number → Except ArithmeticFault Number
  | [] => op.settle operands acc
  | b :: rest =>
    if byZero : op = .div ∧ b.isZero = true then .error (.divisionByZero acc b)
    else
      have notZero : op = .div → b.isZero = false := fun isDiv =>
        Bool.eq_false_iff.mpr fun zero => byZero ⟨isDiv, zero⟩
      match op.combine? acc b notZero with
      | some next => fold op operands next rest
      | none => .error (.numericOverflow op operands)

def apply (op : Arithmetic) : List Number → Except Failure Number
  | [] => .error (.misuse .noOperands)
  | a :: rest => (op.fold (a :: rest) a rest).mapError fun cause => .fault (.arithmetic cause)

end Arithmetic

namespace Comparison

def holds : Comparison → Ordering → Bool
  | .greater, order => order = .gt
  | .less, order => order = .lt
  | .greaterEq, order => order ≠ .lt
  | .lessEq, order => order ≠ .gt
  | .equal, order => order = .eq

def compare (op : Comparison) (a b : Number) : Bool :=
  match a.order? b with
  | some order => op.holds order
  | none => false

def apply (op : Comparison) : List Number → Except Failure Number
  | [a, b] => .ok (.int (if op.compare a b then 1 else 0))
  | _ => .error (.misuse .notTwoOperands)

end Comparison

def Operator.apply : Operator → List Number → Except Failure Number
  | .arithmetic op => op.apply
  | .comparison op => op.apply

end ParenCalc
