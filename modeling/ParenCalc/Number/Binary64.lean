/-!
# Double precision numbers

A finite double is a whole number of units of `2^-1074`: a significand below `2^53` times a power
of two.  Every exact value is then an integer or a quotient of integers, and an operation is its
exact value rounded once, to the nearest double and to the even significand when two are equally
near.
-/
set_option autoImplicit false

namespace ParenCalc

/-- The form a finite double is kept in: the significand has all its 53 bits, unless the power is
already the least.  The bounds are `2^53` and `2^52`. -/
structure Binary64.Canonical (significand power : Nat) : Prop where
  significand_lt : significand < 0x20000000000000
  power_le : power ≤ 2045
  full : 0x10000000000000 ≤ significand ∨ power = 0

instance (significand power : Nat) : Decidable (Binary64.Canonical significand power) :=
  if h : significand < 0x20000000000000 ∧ power ≤ 2045 ∧
      (0x10000000000000 ≤ significand ∨ power = 0) then
    .isTrue ⟨h.1, h.2.1, h.2.2⟩
  else .isFalse fun c => h ⟨c.significand_lt, c.power_le, c.full⟩

/-- A double: no number, an infinity, or `significand * 2^power` units of `2^-1074`. -/
inductive Binary64
  | nan
  | infinite (negative : Bool)
  | finite (negative : Bool) (significand power : Nat)
      (canonical : Binary64.Canonical significand power)
deriving DecidableEq

namespace Binary64

def zero (negative : Bool) : Binary64 := .finite negative 0 0 (by decide)

def isFinite : Binary64 → Bool
  | .finite .. => true
  | _ => false

def isNaN : Binary64 → Bool
  | .nan => true
  | _ => false

def isNegative : Binary64 → Bool
  | .nan => false
  | .infinite negative => negative
  | .finite negative .. => negative

def one : Nat := Nat.pow 2 1074

/-- The magnitude of a finite double in units. -/
def magnitude : Binary64 → Nat
  | .finite _ significand power _ => significand * Nat.pow 2 power
  | _ => 0

def units (x : Binary64) : Int := if x.isNegative then -(x.magnitude : Int) else x.magnitude

/-- The integer nearest to `num / den`, the even one of two equally near. -/
def nearest (num den : Nat) : Nat :=
  let below := num / den
  let rest := num % den
  if 2 * rest < den then below
  else if 2 * rest > den then below + 1
  else if below % 2 = 0 then below else below + 1

/-- The double of a canonical significand and power, infinite when there is none. -/
def assemble (negative : Bool) (significand power : Nat) : Binary64 :=
  if h : Canonical significand power then .finite negative significand power h
  else .infinite negative

/-- The double nearest to `num / den` units, infinite from half a step past the greatest one. -/
def roundUnits (negative : Bool) (num den : Nat) : Binary64 :=
  let power := (num / den).log2 - 52
  let significand := nearest num (den * Nat.pow 2 power)
  if significand = 0x20000000000000 then assemble negative 0x10000000000000 (power + 1)
  else assemble negative significand power

def ofRatio (negative : Bool) (num den : Nat) : Binary64 := roundUnits negative (num * one) den

def ofInt (i : Int) : Binary64 := ofRatio (i < 0) i.natAbs 1

def neg : Binary64 → Binary64
  | .nan => .nan
  | .infinite negative => .infinite !negative
  | .finite negative significand power h => .finite (!negative) significand power h

/-- An exact zero is positive, unless both terms are negative. -/
def add : Binary64 → Binary64 → Binary64
  | .nan, _ => .nan
  | _, .nan => .nan
  | .infinite a, .infinite b => if a = b then .infinite a else .nan
  | .infinite a, _ => .infinite a
  | _, .infinite b => .infinite b
  | x@(.finite a ..), y@(.finite b ..) =>
    let sum := x.units + y.units
    if sum = 0 then zero (a && b) else roundUnits (sum < 0) sum.natAbs 1

def sub (x y : Binary64) : Binary64 := x.add y.neg

/-- An infinity times zero is no number. -/
def mul (x y : Binary64) : Binary64 :=
  let negative := x.isNegative != y.isNegative
  match x, y with
  | .nan, _ => .nan
  | _, .nan => .nan
  | .finite .., .finite .. => roundUnits negative (x.magnitude * y.magnitude) one
  | .finite .., _ => if x.magnitude = 0 then .nan else .infinite negative
  | _, .finite .. => if y.magnitude = 0 then .nan else .infinite negative
  | _, _ => .infinite negative

/-- Zero by zero and infinity by infinity are no numbers. -/
def div (x y : Binary64) : Binary64 :=
  let negative := x.isNegative != y.isNegative
  match x, y with
  | .nan, _ => .nan
  | _, .nan => .nan
  | .infinite _, .infinite _ => .nan
  | .infinite _, _ => .infinite negative
  | _, .infinite _ => zero negative
  | .finite .., .finite .. =>
    if y.magnitude = 0 then if x.magnitude = 0 then .nan else .infinite negative
    else roundUnits negative (x.magnitude * one) y.magnitude

end Binary64

end ParenCalc
