import ParenCalc.Fault
/-!
# Expressions

A program is a tree of literals, references, definitions, conditionals and applications.  A tree
made by hand may also hold an alien node, which is no expression, and an application of a symbol
that names no operator; no text builds either.
-/
set_option autoImplicit false

namespace ParenCalc

inductive Expr
  | literal (value : Number)
  | reference (name : Symbol)
  | definition (name : Symbol) (value : Expr)
  | conditional (test yes no : Expr)
  | application (operator : Symbol) (arguments : List Expr)
  | alien (value : Datum)

namespace Expr

mutual

/-- The first alien node, from the root and from the left. -/
def alien? : Expr → Option Datum
  | .literal _ => none
  | .reference _ => none
  | .definition _ value => value.alien?
  | .conditional test yes no => (test.alien?.or yes.alien?).or no.alien?
  | .application _ arguments => alienAmong? arguments
  | .alien d => some d

def alienAmong? : List Expr → Option Datum
  | [] => none
  | e :: rest => e.alien?.or (alienAmong? rest)

end

mutual

/-- Equality up to the values of numbers: an integer literal equals the double of its value, and a
NaN literal equals nothing. -/
def same : Expr → Expr → Bool
  | .literal a, .literal b => a.same b
  | .reference a, .reference b => a = b
  | .definition a x, .definition b y => a = b && x.same y
  | .conditional a b c, .conditional x y z => a.same x && b.same y && c.same z
  | .application f xs, .application g ys => f = g && sameAll xs ys
  | _, _ => false

def sameAll : List Expr → List Expr → Bool
  | [], [] => true
  | x :: xs, y :: ys => x.same y && sameAll xs ys
  | _, _ => false

end

mutual

def toDatum : Expr → Datum
  | .literal n => .number n
  | .reference s => .symbol s
  | .definition s value => .list [.symbol .define, .symbol s, value.toDatum]
  | .conditional test yes no => .list [.symbol .cond, test.toDatum, yes.toDatum, no.toDatum]
  | .application s arguments => .list (.symbol s :: toData arguments)
  | .alien d => d

def toData : List Expr → List Datum
  | [] => []
  | e :: rest => e.toDatum :: toData rest

end

end Expr

end ParenCalc
