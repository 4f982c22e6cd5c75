import ParenCalc.Operator
import ParenCalc.Report
/-!
# Faults

Every way in which the language refuses an input, by cause, and the report each cause makes.
Besides the faults of the language there are misuses: calls that no program text can lead to.
-/
set_option autoImplicit false

namespace ParenCalc

inductive Malformed
  | unexpected (position : Nat) (c : CodePoint)
  | badNumber (token : Text)
  | badName (value : Datum)
  | unopened
  | unclosed
  | empty (text : Text)
  | trailing (token : Text)
  | unsupportedLiteral (value : Bool)
  | emptyForm
  | unknownHead (head : Symbol)
  | headNoSymbol (head : Datum)
  | unbuildable (value : Datum)
  | defineShape
  | defineTarget (target : Datum)
  | reserved (name : Symbol)
  | condShape
  | arity (op : Operator) (count : Nat)
  | undefinable (value : Datum)
  | tooDeep (excerpt : Text)

inductive ArithmeticFault
  | divisionByZero (dividend divisor : Number)
  | numericOverflow (op : Arithmetic) (operands : List Number)
  | integerOverflow (op : Arithmetic) (operands : List Number)

/-- A tree that no text builds. -/
inductive InternalFault
  | unknownOperator (name : Symbol)
  | notExpression (value : Datum)

inductive Fault
  | malformed (cause : Malformed)
  | undefined (name : Text)
  | arithmetic (cause : ArithmeticFault)
  | sessionNotFound (id : Text)
  | sessionLimit (limit : Int)
  | internal (cause : InternalFault)

/-- A call outside what the language answers for: an operator without operands, a comparison of
other than two, a nesting that leaves no room, and a name that is a list. -/
inductive Misuse
  | noOperands
  | notTwoOperands
  | noRoom
  | listAsName
deriving DecidableEq

inductive Failure
  | fault (fault : Fault)
  | misuse (misuse : Misuse)

namespace Malformed

def message : Malformed → Text
  | .unexpected position c =>
    "Unexpected char at " ++ Text.ofNat position ++ ": " ++ Text.quoted [c]
  | .badNumber token => "Invalid number: " ++ token
  | .badName value => "Invalid symbol name: " ++ value.quoted
  | .unopened => "Unmatched ')'"
  | .unclosed => "Unmatched '('"
  | .empty _ => "Empty expression"
  | .trailing token => "Unexpected data after expression: " ++ token
  | .unsupportedLiteral value => "Unsupported literal: " ++ Foreign.truthText value
  | .emptyForm => "Empty form ()"
  | .unknownHead head => "Unknown operator or keyword: " ++ head.name
  | .headNoSymbol head => "Form head must be a symbol, got " ++ head.quoted
  | .unbuildable value => "Cannot build expression from " ++ value.quoted
  | .defineShape => "define requires exactly a name and a value"
  | .defineTarget target => "define requires a symbol name, got " ++ target.quoted
  | .reserved name => "Cannot redefine reserved name " ++ name.name
  | .condShape => "if requires a condition, a then-expression and an else-expression"
  | .arity op count =>
    op.symbol.name ++ " requires " ++ op.arityText ++ ", got " ++ Text.ofNat count
  | .undefinable value => "Cannot define " ++ value.quoted ++ " as a symbol"
  | .tooDeep _ => "Expression is nested too deeply"

def text : Malformed → Text
  | .unexpected _ c => [c]
  | .badNumber token => token
  | .badName value => value.shown
  | .unopened => ")"
  | .unclosed => "("
  | .empty text => text
  | .trailing token => token
  | .unsupportedLiteral value => Foreign.truthText value
  | .emptyForm => "()"
  | .unknownHead head => head.name
  | .headNoSymbol head => head.quoted
  | .unbuildable value => value.quoted
  | .defineShape => Symbol.define.name
  | .defineTarget target => target.shown
  | .reserved name => name.name
  | .condShape => Symbol.cond.name
  | .arity op _ => op.symbol.name
  | .undefinable value => value.shown
  | .tooDeep excerpt => excerpt

end Malformed

def ArithmeticFault.report : ArithmeticFault → Report
  | .divisionByZero a b => .arithmetic "Division by zero" Arithmetic.div.symbol.name [a, b]
  | .numericOverflow op operands =>
    .arithmetic ("Numeric overflow in " ++ op.symbol.name) op.symbol.name operands
  | .integerOverflow op operands =>
    .arithmetic ("Integer overflow in " ++ op.symbol.name) op.symbol.name operands

def InternalFault.message : InternalFault → Text
  | .unknownOperator name => "Unknown operator reached the evaluator: " ++ name.name
  | .notExpression value => "Not an expression: " ++ value.quoted

def Fault.report : Fault → Report
  | .malformed cause => .malformed cause.message (some cause.text)
  | .undefined name => .undefined name
  | .arithmetic cause => cause.report
  | .sessionNotFound id => .sessionNotFound id
  | .sessionLimit limit => .sessionLimit limit
  | .internal cause => .internal cause.message

end ParenCalc
