import ParenCalc.Text.DecimalDigit
/-!
# Decimal digits of a natural number

`Digits.ofNat` lists the digits of a number, the most significant first, and `Digits.value` reads a
list of digits back.
-/
set_option autoImplicit false

namespace ParenCalc.Digits

def onto (n : Nat) (tail : List Nat) : List Nat :=
  if n < 10 then n :: tail else onto (n / 10) (n % 10 :: tail)
termination_by n

/-- The digits of a number without leading zeros; zero has the one digit zero. -/
def ofNat (n : Nat) : List Nat := onto n []

def value (digits : List Nat) : Nat := digits.foldl (fun n d => n * 10 + d) 0

def text (digits : List Nat) : Text := digits.map CodePoint.ofDigit

def ofText (t : Text) : Nat := value (t.map CodePoint.digitValue)

end ParenCalc.Digits

namespace ParenCalc

def Text.ofNat (n : Nat) : Text := Digits.text (Digits.ofNat n)

/-- An integer in decimal, a minus sign before a negative one. -/
def Text.ofInt (i : Int) : Text :=
  if i < 0 then '-' :: Text.ofNat i.natAbs else Text.ofNat i.natAbs

end ParenCalc
