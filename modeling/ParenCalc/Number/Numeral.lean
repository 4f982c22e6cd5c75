import ParenCalc.Number.Decimal
import ParenCalc.Number.Digits
/-!
# Numerals

The texts of numbers: a sign and digits for an integer; a sign, digits around an optional point and
an optional power of ten for a decimal.
-/
set_option autoImplicit false

namespace ParenCalc.Numeral

/-- The longest run of digits that is read as an integer. -/
def maxDigits : Nat := 4300

/-- Whether a minus sign leads, and what follows the sign. -/
def signed : Text → Bool × Text
  | [] => (false, [])
  | c :: rest =>
    if c = '-' then (true, rest) else if c = '+' then (false, rest) else (false, c :: rest)

def integer? (t : Text) : Option Int :=
  let (negative, digits) := signed t
  if digits ≠ [] ∧ digits.all CodePoint.isDigit then
    some (if negative then -(Digits.ofText digits : Int) else Digits.ofText digits)
  else none

def digitCount (t : Text) : Nat := t.countP CodePoint.isDigit

/-- The power of ten after a decimal: none, or `e` and an integer. -/
def exponent? : Text → Option Int
  | [] => some 0
  | c :: rest => if c = 'e' ∨ c = 'E' then integer? rest else none

/-- Digits, at least one on one side of an optional point, then an optional power of ten. -/
def decimal? (t : Text) : Option Decimal :=
  let (negative, body) := signed t
  let whole := body.takeWhile CodePoint.isDigit
  let (parts, tail) :=
    match body.dropWhile CodePoint.isDigit with
    | [] => ([], [])
    | c :: rest =>
      if c = '.' then (rest.takeWhile CodePoint.isDigit, rest.dropWhile CodePoint.isDigit)
      else ([], c :: rest)
  if whole ++ parts = [] then none
  else
    (exponent? tail).map fun exponent =>
      ⟨negative, Digits.ofText (whole ++ parts), exponent - parts.length⟩

/-- Leaves out the underscores of a numeral, each of which has to stand between two digits;
`afterDigit` tells whether a digit stands just before. -/
def ungrouped? (afterDigit : Bool) : Text → Option Text
  | [] => some []
  | c :: rest =>
    if c = '_' then
      if afterDigit && (rest.head?.map CodePoint.isDigit).getD false then ungrouped? false rest
      else none
    else (ungrouped? c.isDigit rest).map (c :: ·)

def groupedInteger? (t : Text) : Option Int :=
  if digitCount t ≤ maxDigits then (ungrouped? false t).bind integer? else none

def lowerAscii (c : CodePoint) : CodePoint :=
  if 65 ≤ c.val ∧ c.val ≤ 90 then CodePoint.ofNat (c.val + 32) else c

/-- The names of the infinities and of the NaN, in either case and with an optional sign. -/
def special? (t : Text) : Option Binary64 :=
  let (negative, body) := signed t
  let name : Text := body.map lowerAscii
  if name = "inf" ∨ name = "infinity" then some (.infinite negative)
  else if name = "nan" then some .nan
  else none

/-- A double: a decimal whose digits may be grouped by underscores, an infinity, or the NaN. -/
def float? (t : Text) : Option Binary64 :=
  match special? t with
  | some x => some x
  | none => ((ungrouped? false t).bind decimal?).map Decimal.toBinary64

end ParenCalc.Numeral
