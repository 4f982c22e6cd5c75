import ParenCalc.Number.Decimal
import ParenCalc.Number.Digits
/-!
# The shortest text of a double

A double is written with the fewest digits that read back as the same double, and among those with
the digits nearest to it, an even last digit when two are equally near.  Each grid of decimals is
tried from coarse to fine, and on each grid only the two neighbours of the exact value can do.
-/
set_option autoImplicit false

namespace ParenCalc.Binary64

/-- The exact value of a positive double over the step `10^exponent`, as a quotient. -/
def stepsOf (x : Binary64) (exponent : Int) : Nat × Nat :=
  if 0 ≤ exponent then (x.magnitude, one * Nat.pow 10 exponent.toNat)
  else (x.magnitude * Nat.pow 10 (-exponent).toNat, one)

/-- Whether the coefficient on the grid of `10^exponent` reads back as the double. -/
def readsBack (x : Binary64) (coefficient : Nat) (exponent : Int) : Bool :=
  (Decimal.mk x.isNegative coefficient exponent).toBinary64 = x

/-- The better of the two neighbours on the grid of `10^exponent`, if one of them reads back. -/
def onGrid? (x : Binary64) (exponent : Int) : Option Decimal :=
  let (num, den) := stepsOf x exponent
  let below := num / den
  let above := below + 1
  let better :=
    if x.readsBack below exponent then
      if x.readsBack above exponent then some (nearest num den) else some below
    else if x.readsBack above exponent then some above else none
  better.map fun coefficient => ⟨x.isNegative, coefficient, exponent⟩

/-- An exponent of ten that is greater than the double. -/
def coarsest (x : Binary64) : Int :=
  ((x.magnitude.log2 : Int) - 1074) * 30103 / 100000 + 2

/-- The decimal a finite double is written as.  Seventeen digits always suffice, so the exact value
in the last place is never needed; with it the result reads back for a simple reason. -/
def shortest (x : Binary64) : Decimal :=
  let grids := (List.range 22).map fun (n : Nat) => x.coarsest - n
  match grids.findSome? x.onGrid? with
  | some decimal => decimal
  | none => .ofBinary64 x

def exponentText (exponent : Int) : Text :=
  let digits := Digits.ofNat exponent.natAbs
  (if exponent < 0 then '-' else '+') ::
    Digits.text (if digits.length < 2 then 0 :: digits else digits)

/-- Digits with the point after the first `place` of them.  From `0.0001` up to below `10^16` the
digits stand around the point, with a zero wherever one side of it would be empty; elsewhere one
digit stands before it and a power of ten follows.  There a lone digit has a point and a zero only
when `pointed`. -/
def layout (pointed : Bool) (digits : List Nat) (place : Int) : Text :=
  if -4 < place ∧ place ≤ 16 then
    if place ≤ 0 then
      "0." ++ Digits.text (List.replicate (-place).toNat 0 ++ digits)
    else
      let whole := digits.take place.toNat
      let parts := digits.drop place.toNat
      Digits.text (whole ++ List.replicate (place.toNat - whole.length) 0) ++
        "." ++ Digits.text (if parts = [] then [0] else parts)
  else
    let parts := digits.drop 1
    let rest : Text :=
      if parts = [] then if pointed then ".0" else [] else "." ++ Digits.text parts
    Digits.text (digits.take 1) ++ rest ++ "e" ++ exponentText (place - 1)

def layoutDecimal (pointed : Bool) (d : Decimal) : Text :=
  let digits := Digits.ofNat d.coefficient
  let place := if d.coefficient = 0 then 1 else digits.length + d.exponent
  let body := layout pointed digits place
  if d.negative then '-' :: body else body

def text (pointed : Bool) : Binary64 → Text
  | .nan => "nan"
  | .infinite false => "inf"
  | .infinite true => "-inf"
  | x@(.finite ..) =>
    layoutDecimal pointed (if x.magnitude = 0 then ⟨x.isNegative, 0, 0⟩ else x.shortest)

end ParenCalc.Binary64
