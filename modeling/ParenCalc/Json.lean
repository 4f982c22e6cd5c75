import ParenCalc.Datum
import ParenCalc.OrderedMap
/-!
# JSON values

The values that cross the wire.  The members of an object have their order, and every key once.
-/
set_option autoImplicit false

namespace ParenCalc

inductive Json
  | null
  | bool (value : Bool)
  | number (value : Number)
  | string (value : Text)
  | array (items : List Json)
  | object (members : List (Text × Json))

namespace Json

/-- The object of some members, of which a later one replaces an earlier one with the same key. -/
def ofMembers (members : List (Text × Json)) : Json :=
  .object (OrderedMap.ofList members).entries

def member? (key : Text) (members : List (Text × Json)) : Option Json :=
  (members.find? fun entry => entry.1 = key).map Prod.snd

mutual

def quoted : Json → Text
  | .null => "None"
  | .bool b => Foreign.truthText b
  | .number n => n.text
  | .string t => Text.quoted t
  | .array items => "[" ++ Text.joined ", " (quotedItems items) ++ "]"
  | .object members => "\x7b" ++ Text.joined ", " (quotedMembers members) ++ "\x7d"

def quotedItems : List Json → List Text
  | [] => []
  | v :: rest => v.quoted :: quotedItems rest

def quotedMembers : List (Text × Json) → List Text
  | [] => []
  | (key, v) :: rest => (Text.quoted key ++ ": " ++ v.quoted) :: quotedMembers rest

end

/-- The value as plain text: a string is itself. -/
def shown : Json → Text
  | .string t => t
  | v => v.quoted

mutual

/-- Whether every number has a JSON text: there is none for infinities and the NaN. -/
def isStrict : Json → Bool
  | .number (.float x) => x.isFinite
  | .array items => areStrict items
  | .object members => areStrictMembers members
  | _ => true

def areStrict : List Json → Bool
  | [] => true
  | v :: rest => v.isStrict && areStrict rest

def areStrictMembers : List (Text × Json) → Bool
  | [] => true
  | (_, v) :: rest => v.isStrict && areStrictMembers rest

end

end Json

end ParenCalc
