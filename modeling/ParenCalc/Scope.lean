import ParenCalc.Fault
import ParenCalc.OrderedMap
/-!
# Scopes

A frame binds symbols to numbers, in the order of their first definition.  A scope is a frame inside
a chain of outer frames: a symbol means what the innermost frame that binds it says, and a
definition binds it in the scope's own frame.
-/
set_option autoImplicit false

namespace ParenCalc

abbrev Frame := OrderedMap Symbol Number

structure Scope where
  frame : Frame
  outer : List Frame

namespace Frame

def shown (f : Frame) : Text :=
  "\x7b" ++
    Text.joined ", " (f.entries.map fun entry => entry.1.name ++ ": " ++ entry.2.text) ++ "\x7d"

end Frame

namespace Scope

def root (f : Frame) : Scope := ⟨f, []⟩

def frames (s : Scope) : List Frame := s.frame :: s.outer

/-- The value of a symbol in the nearest of some frames that binds it. -/
def lookupIn? (x : Symbol) : List Frame → Option Number
  | [] => none
  | f :: rest =>
    match f.get? x with
    | some value => some value
    | none => lookupIn? x rest

def lookup? (s : Scope) (x : Symbol) : Option Number := lookupIn? x s.frames

def define (s : Scope) (x : Symbol) (value : Number) : Scope :=
  { s with frame := s.frame.insert x value }

@[simp]
theorem lookup?_root (g : Frame) (x : Symbol) : (root g).lookup? x = g.get? x := by
  simp only [lookup?, root, frames, lookupIn?]
  cases g.get? x <;> rfl

theorem lookup?_define (s : Scope) (x : Symbol) (value : Number) (y : Symbol) :
    (s.define x value).lookup? y = if x = y then some value else s.lookup? y := by
  simp only [lookup?, define, frames, lookupIn?, OrderedMap.get?_insert]
  by_cases h : x = y <;> simp [h]

/-- The scope's own bindings, and whether there is anything around them. -/
def shown (s : Scope) : Text :=
  if s.outer = [] then Frame.shown s.frame else Frame.shown s.frame ++ " -> ..."

def quoted (s : Scope) : Text :=
  "<Environment chain: " ++ Text.joined " -> " (s.frames.map Frame.shown) ++ ">"

end Scope

end ParenCalc
