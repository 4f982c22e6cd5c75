import ParenCalc.Number.Basic
import ParenCalc.Number.Shortest
import ParenCalc.Symbol
/-!
# Data

What a text denotes before it is taken as an expression: a number, a symbol, or a list of data.
A caller of the library may also hand over a value that no text denotes; such a foreign value is
carried along so that a message can show it.
-/
set_option autoImplicit false

namespace ParenCalc

/-- The text of a number as a message shows it. -/
def Number.text : Number → Text
  | .int i => Text.ofInt i
  | .float x => x.text false

/-- The text of a number as a program writes it: there is a point in every double. -/
def Number.literal : Number → Text
  | .int i => Text.ofInt i
  | .float x => x.text true

inductive Foreign
  | nothing
  | truth (value : Bool)
  | text (value : Text)
deriving DecidableEq

inductive Datum
  | number (value : Number)
  | symbol (value : Symbol)
  | list (items : List Datum)
  | foreign (value : Foreign)

namespace Foreign

def truthText (b : Bool) : Text := if b then "True" else "False"

def quoted : Foreign → Text
  | .nothing => "None"
  | .truth b => truthText b
  | .text t => Text.quoted t

def shown : Foreign → Text
  | .text t => t
  | v => v.quoted

end Foreign

namespace Datum

mutual

def quoted : Datum → Text
  | .number n => n.text
  | .symbol s => s.quoted
  | .list items => "[" ++ quotedItems items ++ "]"
  | .foreign v => v.quoted

/-- The items of a list, a comma and a space between neighbours. -/
def quotedItems : List Datum → Text
  | [] => []
  | [d] => d.quoted
  | d :: e :: rest => d.quoted ++ ", " ++ quotedItems (e :: rest)

end

/-- The datum as plain text: a symbol is its name and a text is itself. -/
def shown : Datum → Text
  | .symbol s => s.name
  | .foreign v => v.shown
  | d => d.quoted

mutual

/-- The nesting of lists: none for an atom, one for a list of atoms. -/
def depth : Datum → Nat
  | .list items => depthOfItems items + 1
  | _ => 0

def depthOfItems : List Datum → Nat
  | [] => 0
  | d :: rest => max d.depth (depthOfItems rest)

end

end Datum

end ParenCalc
