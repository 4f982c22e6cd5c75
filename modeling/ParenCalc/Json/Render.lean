import ParenCalc.Json
import ParenCalc.Text.Hex
/-!
# Writing JSON

A value is written on one line in ASCII: everything else is escaped, code points beyond four
hexadecimal digits as a pair of surrogates.
-/
set_option autoImplicit false

namespace ParenCalc.Json

def escapedUnit (unit : Nat) : Text := '\\' :: 'u' :: Text.hex 4 unit

def escaped (c : CodePoint) : Text :=
  if c = '\x22' then ['\\', '\x22']
  else if c = '\\' then ['\\', '\\']
  else if c = '\n' then ['\\', 'n']
  else if c = '\r' then ['\\', 'r']
  else if c = '\t' then ['\\', 't']
  else if c = '\x08' then ['\\', 'b']
  else if c = '\x0c' then ['\\', 'f']
  else if 32 ≤ c.val ∧ c.val ≤ 126 then [c]
  else if c.val < 0x10000 then escapedUnit c.val
  else
    escapedUnit (0xD800 + (c.val - 0x10000) / 0x400) ++
      escapedUnit (0xDC00 + (c.val - 0x10000) % 0x400)

def renderString (t : Text) : Text := "\x22" ++ t.flatMap escaped ++ "\x22"

mutual

/-- The text of a value whose numbers are finite. -/
def render : Json → Text
  | .null => "null"
  | .bool b => if b then "true" else "false"
  | .number n => n.text
  | .string t => renderString t
  | .array items => "[" ++ Text.joined ", " (renderItems items) ++ "]"
  | .object members => "\x7b" ++ Text.joined ", " (renderMembers members) ++ "\x7d"

def renderItems : List Json → List Text
  | [] => []
  | v :: rest => v.render :: renderItems rest

def renderMembers : List (Text × Json) → List Text
  | [] => []
  | (key, v) :: rest => (renderString key ++ ": " ++ v.render) :: renderMembers rest

end

end ParenCalc.Json
