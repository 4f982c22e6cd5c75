import ParenCalc.Symbol
/-!
# Operators

The nine built-in operators.  Arithmetic takes two or more operands, a comparison exactly two.
-/
set_option autoImplicit false

namespace ParenCalc

inductive Arithmetic
  | add
  | sub
  | mul
  | div
deriving DecidableEq

inductive Comparison
  | greater
  | less
  | greaterEq
  | lessEq
  | equal
deriving DecidableEq

inductive Operator
  | arithmetic (op : Arithmetic)
  | comparison (op : Comparison)
deriving DecidableEq

def Arithmetic.symbol : Arithmetic → Symbol
  | .add => ⟨"+", by decide⟩
  | .sub => ⟨"-", by decide⟩
  | .mul => ⟨"*", by decide⟩
  | .div => ⟨"/", by decide⟩

def Comparison.symbol : Comparison → Symbol
  | .greater => ⟨">", by decide⟩
  | .less => ⟨"<", by decide⟩
  | .greaterEq => ⟨">=", by decide⟩
  | .lessEq => ⟨"<=", by decide⟩
  | .equal => ⟨"=", by decide⟩

namespace Operator

def symbol : Operator → Symbol
  | .arithmetic op => op.symbol
  | .comparison op => op.symbol

def all : List Operator :=
  [.add, .sub, .mul, .div].map arithmetic ++
    [.greater, .less, .greaterEq, .lessEq, .equal].map comparison

def ofSymbol? (s : Symbol) : Option Operator := all.find? fun op => op.symbol = s

def accepts : Operator → Nat → Bool
  | .arithmetic _, count => 2 ≤ count
  | .comparison _, count => count = 2

def arityText : Operator → Text
  | .arithmetic _ => "at least 2 arguments"
  | .comparison _ => "exactly 2 arguments"

@[simp]
theorem ofSymbol?_symbol (op : Operator) : ofSymbol? op.symbol = some op := by
  rcases op with op | op <;> cases op <;> decide

theorem symbol_of_ofSymbol? (s : Symbol) (op : Operator) (h : ofSymbol? s = some op) :
    op.symbol = s := by
  simpa using List.find?_some h

end Operator

def Symbol.isReserved (s : Symbol) : Bool :=
  s = Symbol.define || s = Symbol.cond || (Operator.ofSymbol? s).isSome

end ParenCalc
