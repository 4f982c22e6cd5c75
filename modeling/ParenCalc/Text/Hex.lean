import ParenCalc.Text.CodePoint
/-!
# Hexadecimal digits

Numbers in base sixteen with a fixed count of lower case digits, as escapes need them, and the
value of one digit in either case.
-/
set_option autoImplicit false

namespace ParenCalc

namespace CodePoint

/-- The hexadecimal digit of a value below sixteen, in lower case. -/
def ofHexDigit (d : Nat) : CodePoint := ofNat (if d < 10 then 48 + d else 87 + d)

def hexValue? (c : CodePoint) : Option Nat :=
  if 48 ≤ c.val ∧ c.val ≤ 57 then some (c.val - 48)
  else if 97 ≤ c.val ∧ c.val ≤ 102 then some (c.val - 87)
  else if 65 ≤ c.val ∧ c.val ≤ 70 then some (c.val - 55)
  else none

theorem hexValue?_ofHexDigit (d : Nat) (h : d < 16) : (ofHexDigit d).hexValue? = some d := by
  have : ∀ d : Fin 16, (ofHexDigit d).hexValue? = some d.val := by decide
  exact this ⟨d, h⟩

end CodePoint

def Text.hex : (width : Nat) → Nat → Text
  | 0, _ => []
  | width + 1, n => hex width (n / 16) ++ [CodePoint.ofHexDigit (n % 16)]

theorem Text.length_hex (width n : Nat) : (Text.hex width n).length = width := by
  induction width generalizing n with
  | zero => rfl
  | succ width ih => simp [Text.hex, ih]

end ParenCalc
