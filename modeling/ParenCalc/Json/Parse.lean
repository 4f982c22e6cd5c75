import ParenCalc.Json
import ParenCalc.Number.Numeral
import ParenCalc.Text.Hex
/-!
# Reading JSON

A text is read as one JSON value with blanks around it.  Besides JSON proper the names `NaN`,
`Infinity` and `-Infinity` are numbers, and a half of a surrogate pair may stand alone.  A refusal
says what was expected and where.  Values may be nested only as deep as there is room, and an
integer may have only so many digits; either excess is no refusal of the text but a failure.
-/
set_option autoImplicit false

namespace ParenCalc.Json

inductive Expected
  | value
  | propertyName
  | colon
  | comma
  | endOfText
  | noByteOrderMark
  | stringEnd
  | noControl
  | escape
  | unicodeEscape
deriving DecidableEq

/-- What goes past the limits of reading: the digits of an integer or the nesting of a value. -/
inductive Overrun
  | digits
  | nesting
deriving DecidableEq

inductive ParseError
  | expected (what : Expected) (position : Nat)
  | overrun (overrun : Overrun)
deriving DecidableEq

def Expected.message : Expected → Text
  | .value => "Expecting value"
  | .propertyName => "Expecting property name enclosed in double quotes"
  | .colon => "Expecting ':' delimiter"
  | .comma => "Expecting ',' delimiter"
  | .endOfText => "Extra data"
  | .noByteOrderMark => "Unexpected UTF-8 BOM (decode using utf-8-sig)"
  | .stringEnd => "Unterminated string starting at"
  | .noControl => "Invalid control character at"
  | .escape => "Invalid \\escape"
  | .unicodeEscape => "Invalid \\uXXXX escape"

/-- The rest of a text and the position it begins at. -/
structure Input where
  position : Nat
  rest : Text

/-- A step of reading: a result and what follows it. -/
abbrev Step (α : Type) := Except ParseError (α × Input)

namespace Input

def ofText (t : Text) : Input := ⟨0, t⟩

def drop (i : Input) (count : Nat) : Input := ⟨i.position + count, i.rest.drop count⟩

def isBlank (c : CodePoint) : Bool := c = ' ' || c = '\t' || c = '\n' || c = '\r'

def skipBlanks (i : Input) : Input := i.drop (i.rest.takeWhile isBlank).length

def fail {α : Type} (what : Expected) (position : Nat) : Step α := .error (.expected what position)

end Input

open Input (fail)

def fourDigits? : Text → Option Nat
  | a :: b :: c :: d :: _ => do
    return ((← a.hexValue?) * 16 + (← b.hexValue?)) * 256 + ((← c.hexValue?) * 16 + (← d.hexValue?))
  | _ => none

/-- What a backslash and one more code point stand for. -/
def simpleEscape? (c : CodePoint) : Option CodePoint :=
  if c = '\x22' ∨ c = '\\' ∨ c = '/' then some c
  else if c = 'b' then some '\x08'
  else if c = 'f' then some '\x0c'
  else if c = 'n' then some '\n'
  else if c = 'r' then some '\r'
  else if c = 't' then some '\t'
  else none

/-- The second half of a surrogate pair, if the escape of one begins at `position` and the text does
not end with it; wrong digits are refused. -/
def pairedHalf? (position : Nat) (rest : Text) : Except ParseError (Option Nat) :=
  if rest.take 2 = "\\u" ∧ 6 < rest.length then
    match fourDigits? (rest.drop 2) with
    | none => .error (.expected .unicodeEscape (position + 1))
    | some unit => .ok (if 0xDC00 ≤ unit ∧ unit ≤ 0xDFFF then some unit else none)
  else .ok none

/-- The code point of the escape with a `u` whose backslash is at `position`, and how many code
points after the `u` it takes.  Two halves of a surrogate pair in a row are one code point. -/
def unicodeEscape (position : Nat) (digits : Text) : Except ParseError (CodePoint × Nat) :=
  match fourDigits? digits with
  | none => .error (.expected .unicodeEscape (position + 1))
  | some unit =>
    if digits.length < 5 then .error (.expected .unicodeEscape (position + 1))
    else if 0xD800 ≤ unit ∧ unit ≤ 0xDBFF then
      (pairedHalf? (position + 6) (digits.drop 4)).map fun half =>
        match half with
        | some low => (CodePoint.ofNat (0x10000 + (unit - 0xD800) * 0x400 + (low - 0xDC00)), 10)
        | none => (CodePoint.ofNat unit, 4)
    else .ok (CodePoint.ofNat unit, 4)

/-- Reads a string to its end; `start` is where it begins. -/
def readString (start position : Nat) : Text → Step Text
  | [] => fail .stringEnd start
  | c :: rest =>
    if c = '\x22' then .ok ([], ⟨position + 1, rest⟩)
    else if c.val < 32 then fail .noControl position
    else if c = '\\' then
      match rest with
      | [] => fail .stringEnd start
      | e :: rest =>
        if e = 'u' then
          match unicodeEscape position rest with
          | .error refusal => .error refusal
          | .ok (d, count) =>
            (readString start (position + 2 + count) (rest.drop count)).map
              fun (t, after) => (d :: t, after)
        else
          match simpleEscape? e with
          | none => fail .escape position
          | some d =>
            (readString start (position + 2) rest).map fun (t, after) => (d :: t, after)
    else (readString start (position + 1) rest).map fun (t, after) => (c :: t, after)
termination_by t => t.length
decreasing_by
  · simp only [List.length_cons, List.length_drop]
    omega
  · exact Nat.lt_succ_of_lt (Nat.lt_succ_self _)
  · exact Nat.lt_succ_self _

/-- The digits before the point: a zero stands alone. -/
def wholePart : Text → Text
  | [] => []
  | c :: rest => if c = '0' then [c] else (c :: rest).takeWhile CodePoint.isAsciiDigit

def fractionPart : Text → Text
  | [] => []
  | c :: rest =>
    let digits := rest.takeWhile CodePoint.isAsciiDigit
    if c = '.' ∧ digits ≠ [] then c :: digits else []

def signPart : Text → Text
  | [] => []
  | c :: _ => if c = '+' ∨ c = '-' then [c] else []

def exponentPart : Text → Text
  | [] => []
  | c :: rest =>
    let sign := signPart rest
    let digits := (rest.drop sign.length).takeWhile CodePoint.isAsciiDigit
    if (c = 'e' ∨ c = 'E') ∧ digits ≠ [] then c :: sign ++ digits else []

/-- Reads a number: an integer unless it has a fraction or an exponent. -/
def readNumber (i : Input) : Step Json :=
  let minus : Text := if i.rest.take 1 = "-" then "-" else []
  let afterMinus := i.rest.drop minus.length
  let whole := wholePart afterMinus
  let afterWhole := afterMinus.drop whole.length
  let fraction := fractionPart afterWhole
  let exponent := exponentPart (afterWhole.drop fraction.length)
  let numeral := minus ++ whole ++ fraction ++ exponent
  let after := i.drop numeral.length
  if whole = [] then fail .value i.position
  else if fraction = [] ∧ exponent = [] then
    if Numeral.maxDigits < whole.length then .error (.overrun .digits)
    else
      match Numeral.integer? numeral with
      | some n => .ok (.number (.int n), after)
      | none => fail .value i.position
  else
    match Numeral.decimal? numeral with
    | some d => .ok (.number (.float d.toBinary64), after)
    | none => fail .value i.position

def named : List (Text × Json) :=
  [("null", .null), ("true", .bool true), ("false", .bool false),
    ("NaN", .number (.float .nan)), ("Infinity", .number (.float (.infinite false))),
    ("-Infinity", .number (.float (.infinite true)))]

def readScalar (i : Input) : Step Json :=
  match named.find? fun entry => entry.1.isPrefixOf i.rest with
  | some entry => .ok (entry.2, i.drop entry.1.length)
  | none => readNumber i

/-- Reads the items of an array from the first one on.  Each takes part of the text, so as many
rounds as there are code points are enough. -/
def readItems (value : Input → Step Json) : (rounds : Nat) → Input → Step (List Json)
  | 0, _ => .error (.overrun .nesting)
  | rounds + 1, i =>
    match value i with
    | .error e => .error e
    | .ok (v, after) =>
      let next := after.skipBlanks
      match next.rest with
      | [] => fail .comma next.position
      | c :: _ =>
        if c = ']' then .ok ([v], next.drop 1)
        else if c = ',' then
          (readItems value rounds (next.drop 1).skipBlanks).map fun (vs, last) => (v :: vs, last)
        else fail .comma next.position

def readMembers (value : Input → Step Json) : (rounds : Nat) → Input → Step (List (Text × Json))
  | 0, _ => .error (.overrun .nesting)
  | rounds + 1, i =>
    if i.rest.take 1 ≠ "\x22" then fail .propertyName i.position
    else
      match readString i.position (i.position + 1) (i.rest.drop 1) with
      | .error e => .error e
      | .ok (key, afterKey) =>
        let colon := afterKey.skipBlanks
        if colon.rest.take 1 ≠ ":" then fail .colon colon.position
        else
          match value (colon.drop 1).skipBlanks with
          | .error e => .error e
          | .ok (v, after) =>
            let next := after.skipBlanks
            match next.rest with
            | [] => fail .comma next.position
            | c :: _ =>
              if c = '\x7d' then .ok ([(key, v)], next.drop 1)
              else if c = ',' then
                (readMembers value rounds (next.drop 1).skipBlanks).map
                  fun (vs, last) => ((key, v) :: vs, last)
              else fail .comma next.position

def readArray (value : Input → Step Json) (i : Input) : Step Json :=
  let first := i.skipBlanks
  if first.rest.take 1 = "]" then .ok (.array [], first.drop 1)
  else (readItems value first.rest.length.succ first).map fun (vs, after) => (.array vs, after)

def readObject (value : Input → Step Json) (i : Input) : Step Json :=
  let first := i.skipBlanks
  if first.rest.take 1 = "\x7d" then .ok (.object [], first.drop 1)
  else
    (readMembers value first.rest.length.succ first).map fun (vs, after) => (ofMembers vs, after)

/-- Reads a value; each array or object around it takes one unit of room. -/
def readValue (room : Nat) (i : Input) : Step Json :=
  match i.rest with
  | [] => fail .value i.position
  | c :: _ =>
    if c = '\x22' then
      (readString i.position (i.position + 1) (i.rest.drop 1)).map
        fun (t, after) => (.string t, after)
    else if c = '[' then
      match room with
      | 0 => .error (.overrun .nesting)
      | room + 1 => readArray (readValue room) (i.drop 1)
    else if c = '\x7b' then
      match room with
      | 0 => .error (.overrun .nesting)
      | room + 1 => readObject (readValue room) (i.drop 1)
    else readScalar i

def fullRoom : Nat := 990

def parse (t : Text) : Except ParseError Json :=
  if t.head?.map CodePoint.val = some 0xFEFF then .error (.expected .noByteOrderMark 0)
  else
    match readValue fullRoom (Input.ofText t).skipBlanks with
    | .error e => .error e
    | .ok (v, after) =>
      let last := after.skipBlanks
      if last.rest = [] then .ok v else .error (.expected .endOfText last.position)

/-- A refusal with the line, the column and the position it is about. -/
def Expected.describe (what : Expected) (position : Nat) (t : Text) : Text :=
  let before := t.take position
  let line := before.count (CodePoint.ofChar '\n') + 1
  let column := (before.reverse.takeWhile fun c => c ≠ CodePoint.ofChar '\n').length + 1
  what.message ++ ": line " ++ Text.ofNat line ++ " column " ++ Text.ofNat column ++
    " (char " ++ Text.ofNat position ++ ")"

end ParenCalc.Json
