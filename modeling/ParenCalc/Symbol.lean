import ParenCalc.Text.Blank
import ParenCalc.Text.Quoted
/-!
# Symbols

A symbol is a name that can stand in a program as one atom: not empty, and free of blanks, of
parentheses, and of the marks that other languages of this family give a meaning.
-/
set_option autoImplicit false

namespace ParenCalc

/-- The code points besides blanks that no atom contains. -/
def CodePoint.isDelimiter (c : CodePoint) : Bool :=
  c = '(' || c = ')' || c = '\x22' || c = '\x27' || c = ';' || c = '\x60' || c = ','

def CodePoint.isNamePart (c : CodePoint) : Bool := !c.isBlank && !c.isDelimiter

def Text.isName (t : Text) : Bool := !t.isEmpty && t.all CodePoint.isNamePart

/-- A name that reads as one atom. -/
structure Symbol where
  name : Text
  isName : Text.isName name = true
deriving DecidableEq

namespace Symbol

def ofText? (t : Text) : Option Symbol := if h : Text.isName t = true then some ⟨t, h⟩ else none

theorem eq_iff_name (x y : Symbol) : x = y ↔ x.name = y.name := by
  obtain ⟨name, isName⟩ := x
  obtain ⟨other, isOther⟩ := y
  exact Symbol.mk.injEq name isName other isOther ▸ Iff.rfl

theorem ofText?_eq_some_iff (t : Text) (x : Symbol) : ofText? t = some x ↔ x.name = t := by
  unfold ofText?
  split
  · rw [Option.some.injEq, eq_iff_name, eq_comm]
  · rename_i notName
    constructor
    · intro read
      simp at read
    · intro named
      exact absurd (named ▸ x.isName) notName

def quoted (s : Symbol) : Text := "Symbol(" ++ Text.quoted s.name ++ ")"

def define : Symbol := ⟨"define", by decide⟩

def cond : Symbol := ⟨"if", by decide⟩

end Symbol

end ParenCalc
