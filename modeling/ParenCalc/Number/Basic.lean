import ParenCalc.Number.Binary64
/-!
# Numbers

A number is an integer of any size or a double.  Integers stay exact as long as only integers are
met; beside a double an integer becomes the nearest double.  Comparisons are always exact.
-/
set_option autoImplicit false

namespace ParenCalc

inductive Number
  | int (i : Int)
  | float (x : Binary64)
deriving DecidableEq

namespace Number

/-- The widest integer, in bits, that may be written or result from arithmetic. -/
def maxBits : Nat := 14000

def bitLength (i : Int) : Nat := if i = 0 then 0 else i.natAbs.log2 + 1

/-- The numbers that texts and results are limited to: integers of at most `maxBits` bits, and
finite doubles. -/
def isAdmissible : Number → Bool
  | .int i => bitLength i ≤ maxBits
  | .float x => x.isFinite

/-- The nearest double; nothing when the integer is past the greatest double. -/
def toBinary64? : Number → Option Binary64
  | .int i =>
    let x := Binary64.ofInt i
    if x.isFinite then some x else none
  | .float x => some x

def isNaN : Number → Bool
  | .int _ => false
  | .float x => x.isNaN

/-- Minus one and one for the infinities, zero for a number with a finite value. -/
def level : Number → Int
  | .float (.infinite negative) => if negative then -1 else 1
  | _ => 0

/-- The finite value in units of `2^-1074`. -/
def units : Number → Int
  | .int i => i * Binary64.one
  | .float x => x.units

/-- The order of the exact values; none beside a NaN. -/
def order? (a b : Number) : Option Ordering :=
  if a.isNaN || b.isNaN then none
  else some ((compare a.level b.level).then (compare a.units b.units))

def lt (a b : Number) : Bool := a.order? b = some .lt

/-- Equality of values: an integer equals the double of its value, the two zeros are equal, and a
NaN equals nothing. -/
def same (a b : Number) : Bool := a.order? b = some .eq

def isZero (a : Number) : Bool := a.same (.int 0)

def isTruthy (a : Number) : Bool := !a.isZero

/-- Two integers by `exact`, anything else as doubles by `rounded`; nothing when an integer beside a
double is past the greatest double. -/
def combine? (exact : Int → Int → Int) (rounded : Binary64 → Binary64 → Binary64) :
    Number → Number → Option Number
  | .int a, .int b => some (.int (exact a b))
  | a, b => do return .float (rounded (← a.toBinary64?) (← b.toBinary64?))

def add? : Number → Number → Option Number := combine? (· + ·) Binary64.add

def sub? : Number → Number → Option Number := combine? (· - ·) Binary64.sub

def mul? : Number → Number → Option Number := combine? (· * ·) Binary64.mul

/-- The quotient by a number other than zero: an integer when both are integers and it is one, and
the nearest double otherwise; nothing past the greatest double. -/
def div? : (a b : Number) → b.isZero = false → Option Number
  | .int a, .int b, _ =>
    if a % b = 0 then some (.int (a / b))
    else
      let quotient := Binary64.ofRatio ((a < 0) != (b < 0)) a.natAbs b.natAbs
      if quotient.isFinite then some (.float quotient) else none
  | a, b, _ => do return .float (Binary64.div (← a.toBinary64?) (← b.toBinary64?))

end Number

end ParenCalc
