import ParenCalc.Fault
import ParenCalc.Number.Numeral
/-!
# Atoms

An atom that begins like a number has to be one: an integer when it has no point and a finite
double when it has one.  Every other atom is a symbol.
-/
set_option autoImplicit false

namespace ParenCalc

/-- Whether a digit comes first, after an optional sign and an optional point. -/
def Text.looksNumeric (t : Text) : Bool :=
  let unsigned := (Numeral.signed t).2
  match unsigned with
  | [] => false
  | c :: rest => c.isDigit || c = '.' && (rest.head?.map CodePoint.isDigit).getD false

/-- The number a program writes with this text, as far as numbers in programs go. -/
def Number.ofLiteral? (t : Text) : Option Number :=
  if t.contains (CodePoint.ofChar '.') then
    (Numeral.decimal? t).bind fun d =>
      let x := Number.float d.toBinary64
      if x.isAdmissible then some x else none
  else if Numeral.digitCount t ≤ Numeral.maxDigits then
    (Numeral.integer? t).bind fun i =>
      let x := Number.int i
      if x.isAdmissible then some x else none
  else none

def Datum.ofAtom (t : Text) : Except Malformed Datum :=
  if Text.looksNumeric t then
    match Number.ofLiteral? t with
    | some n => .ok (.number n)
    | none => .error (.badNumber t)
  else
    match Symbol.ofText? t with
    | some s => .ok (.symbol s)
    | none => .error (.badName (.foreign (.text t)))

end ParenCalc
