import ParenCalc.Fault
/-!
# Tokens

A text is scanned into parentheses and atoms.  Blanks and comments, which run from a semicolon to
the end of the line, separate tokens and are dropped; a quotation mark of any sort or a comma
outside a comment ends the scan with a fault.  A scan with a fault still has the tokens before it.
-/
set_option autoImplicit false

namespace ParenCalc

inductive Token
  | opening
  | closing
  | atom (name : Text)
deriving DecidableEq

def Token.lexeme : Token → Text
  | .opening => "("
  | .closing => ")"
  | .atom name => name

/-- The tokens of a text up to its end or up to its first fault. -/
structure Scan where
  tokens : List Token
  fault : Option Malformed

namespace Scan

def cons (t : Token) (s : Scan) : Scan := ⟨t :: s.tokens, s.fault⟩

def inComment (c : CodePoint) : Bool := c ≠ '\n'

theorem length_dropWhile_le {α : Type} (p : α → Bool) (l : List α) :
    (l.dropWhile p).length ≤ l.length :=
  (List.dropWhile_sublist p).length_le

def ofTextFrom (position : Nat) : Text → Scan
  | [] => ⟨[], none⟩
  | c :: rest =>
    if c.isBlank then ofTextFrom (position + 1) rest
    else if c = ';' then
      ofTextFrom (position + 1 + (rest.takeWhile inComment).length) (rest.dropWhile inComment)
    else if c = '(' then cons .opening (ofTextFrom (position + 1) rest)
    else if c = ')' then cons .closing (ofTextFrom (position + 1) rest)
    else if c.isNamePart then
      let more := rest.takeWhile CodePoint.isNamePart
      cons (.atom (c :: more))
        (ofTextFrom (position + 1 + more.length) (rest.dropWhile CodePoint.isNamePart))
    else ⟨[], some (.unexpected position c)⟩
termination_by t => t.length
decreasing_by
  · exact Nat.lt_succ_self _
  · exact Nat.lt_succ_of_le (length_dropWhile_le _ _)
  · exact Nat.lt_succ_self _
  · exact Nat.lt_succ_self _
  · exact Nat.lt_succ_of_le (length_dropWhile_le _ _)

def ofText (t : Text) : Scan := ofTextFrom 0 t

end Scan

end ParenCalc
