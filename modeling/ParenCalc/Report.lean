import ParenCalc.Datum
/-!
# Reports

What a caller learns of an error: its kind, a message, and the detail that a program may act on.
The category of a report depends on its kind alone.
-/
set_option autoImplicit false

namespace ParenCalc

inductive Kind
  | malformed
  | undefined
  | arithmetic
  | sessionNotFound
  | sessionLimit
  | internal
deriving DecidableEq

namespace Kind

def name : Kind → Text
  | .malformed => "SyntaxError"
  | .undefined => "UndefinedVariableError"
  | .arithmetic => "ArithmeticError"
  | .sessionNotFound => "SessionNotFoundError"
  | .sessionLimit => "SessionLimitError"
  | .internal => "InternalError"

/-- What the caller can do about it: mend the input, mend the address, wait, or nothing. -/
def category : Kind → Text
  | .malformed | .undefined | .arithmetic => "bad-input"
  | .sessionNotFound => "not-found"
  | .sessionLimit => "unavailable"
  | .internal => "internal"

end Kind

inductive Detail
  | none
  | text (text : Text)
  | name (name : Text)
  | operation (operator : Text) (operands : List Number)
  | session (id : Text)
  | limit (limit : Int)
deriving DecidableEq

structure Report where
  kind : Kind
  message : Text
  detail : Detail
deriving DecidableEq

namespace Report

/-- A report on malformed text, naming the offending part when there is one. -/
def malformed (message : Text) (text : Option Text) : Report :=
  ⟨.malformed, message, match text with | some t => .text t | none => .none⟩

def undefined (name : Text) : Report :=
  ⟨.undefined, "Undefined variable: " ++ name, .name name⟩

def arithmetic (message operator : Text) (operands : List Number) : Report :=
  ⟨.arithmetic, message, .operation operator operands⟩

def sessionNotFound (id : Text) : Report :=
  ⟨.sessionNotFound, "Session not found: " ++ id, .session id⟩

def sessionLimit (limit : Int) : Report :=
  ⟨.sessionLimit, "Session limit reached (" ++ Text.ofInt limit ++ ")", .limit limit⟩

def internal (message : Text) : Report := ⟨.internal, message, .none⟩

def line (r : Report) : Text := r.kind.name ++ ": " ++ r.message

end Report

end ParenCalc
