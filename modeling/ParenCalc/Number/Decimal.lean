import ParenCalc.Number.Binary64
/-!
# Decimal fractions

A signed coefficient times a power of ten, and the double nearest to it.
-/
set_option autoImplicit false

namespace ParenCalc

/-- `coefficient * 10^exponent`, negated when `negative`. -/
structure Decimal where
  negative : Bool
  coefficient : Nat
  exponent : Int
deriving DecidableEq

namespace Decimal

/-- An exponent that rounds alike and is no larger than the coefficient's own length asks for: past
`10^400` every double is infinite, and below `10^-400` every double is zero. -/
def boundedExponent (d : Decimal) : Int :=
  max (min d.exponent 400) (-(d.coefficient.log2 + 401 : Nat))

def nearestBinary64 (negative : Bool) (coefficient : Nat) (exponent : Int) : Binary64 :=
  if 0 ≤ exponent then Binary64.ofRatio negative (coefficient * Nat.pow 10 exponent.toNat) 1
  else Binary64.ofRatio negative coefficient (Nat.pow 10 (-exponent).toNat)

def toBinary64 (d : Decimal) : Binary64 :=
  nearestBinary64 d.negative d.coefficient d.boundedExponent

/-- The exact value of a finite double: below one unit of `2^-1074` every further power of two is a
power of ten over a power of five. -/
def ofBinary64 (x : Binary64) : Decimal := ⟨x.isNegative, x.magnitude * Nat.pow 5 1074, -1074⟩

end Decimal

end ParenCalc
