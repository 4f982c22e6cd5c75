/-!
# Code points and text

A text is a list of Unicode code points.  Code points outside the scalar values (the surrogates
`D800` to `DFFF`) are kept: an escaped half of a surrogate pair may arrive over the wire alone,
and it has to leave again as it came.
-/
set_option autoImplicit false

namespace ParenCalc

structure CodePoint where
  val : Nat
  val_lt : val < 0x110000
deriving DecidableEq

namespace CodePoint

def ofChar (c : Char) : CodePoint :=
  ⟨c.val.toNat, by
    have h := c.valid
    rcases h with h | ⟨_, h⟩
    · exact Nat.lt_trans h (by decide)
    · exact h⟩

instance : Coe Char CodePoint := ⟨ofChar⟩

/-- The code point of a number, the replacement character `FFFD` when the number is too large. -/
def ofNat (n : Nat) : CodePoint :=
  if h : n < 0x110000 then ⟨n, h⟩ else ⟨0xFFFD, by decide⟩

def isSurrogate (c : CodePoint) : Bool := 0xD800 ≤ c.val && c.val ≤ 0xDFFF

/-- The character of a scalar value, the replacement character for a surrogate. -/
def toChar (c : CodePoint) : Char := if c.isSurrogate then '\uFFFD' else Char.ofNat c.val

def isAsciiDigit (c : CodePoint) : Bool := 48 ≤ c.val && c.val ≤ 57

def inRanges (ranges : List (Nat × Nat)) (c : CodePoint) : Bool :=
  ranges.any fun range => range.1 ≤ c.val && c.val ≤ range.2

end CodePoint

abbrev Text := List CodePoint

namespace Text

def ofString (s : String) : Text := s.toList.map CodePoint.ofChar

instance : Coe String Text := ⟨ofString⟩

/-- The text as a string of scalar values; a lone surrogate shows as the replacement character. -/
def toString (t : Text) : String := String.ofList (t.map CodePoint.toChar)

def joined (separator : Text) (parts : List Text) : Text := (parts.intersperse separator).flatten

theorem joined_singleton (separator part : Text) : joined separator [part] = part := by
  simp [joined]

theorem joined_cons_cons (separator first second : Text) (rest : List Text) :
    joined separator (first :: second :: rest) =
      first ++ (separator ++ joined separator (second :: rest)) := by
  simp [joined, List.intersperse]

/-- All parts but the first have the separator before them. -/
theorem joined_cons (separator first : Text) (rest : List Text) :
    joined separator (first :: rest) = first ++ rest.flatMap fun part => separator ++ part := by
  induction rest generalizing first with
  | nil => rw [joined_singleton, List.flatMap_nil, List.append_nil]
  | cons second rest ih => rw [joined_cons_cons, ih, List.flatMap_cons, List.append_assoc]

end Text

end ParenCalc
