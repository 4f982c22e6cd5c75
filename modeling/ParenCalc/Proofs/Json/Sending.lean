import ParenCalc.Proofs.Json.Reading
import ParenCalc.Proofs.Json.Strings
import ParenCalc.Proofs.Number.Literal
import ParenCalc.Proofs.Text.Utf8
/-!
# Values that are sent

A value is sent as the bytes of its text and a line end.  Reading the bytes gives the value back, as
long as it keeps to the limits of reading and splits no surrogate pair.
-/
set_option autoImplicit false

namespace ParenCalc

/-! ## Numbers -/

theorem Number.isSendable_int (i : Int) (narrow : bitLength i ≤ maxBits) : (int i).IsSendable := by
  have count := Numeral.digitCount_ofInt_le i narrow
  rwa [Numeral.ofInt_eq_withSign, Numeral.digitCount_withSign _ _ (Digits.valid_ofNat _)] at count

theorem Number.isSendable_of_isAdmissible (n : Number) (admissible : n.isAdmissible = true) :
    n.IsSendable := by
  cases n with
  | int i => exact isSendable_int i (of_decide_eq_true admissible)
  | float x => exact admissible

namespace Json

/-! ## Values -/

theorem areStrict_iff (items : List Json) :
    areStrict items = true ↔ ∀ v ∈ items, v.isStrict = true := by
  induction items with
  | nil => simp [areStrict]
  | cons v rest ih => simp [areStrict, ih]

theorem areStrictMembers_iff (members : List (Text × Json)) :
    areStrictMembers members = true ↔ ∀ member ∈ members, member.2.isStrict = true := by
  induction members with
  | nil => simp [areStrictMembers]
  | cons member rest ih => simp [areStrictMembers, ih]

theorem isStrict_of_sendable (room : Nat) (v : Json) (sendable : Sendable room v) :
    v.isStrict = true := by
  induction sendable with
  | null room | bool room b | string room t unsplit => rfl
  | number room n sendable =>
      cases n with
      | int i => rfl
      | float x => exact sendable
  | array room items each ih => exact (areStrict_iff items).mpr ih
  | object room members distinct keys each ih => exact (areStrictMembers_iff members).mpr ih

theorem unsplit_of_sendable (room : Nat) (v : Json) (sendable : Sendable room v) : v.Unsplit := by
  induction sendable with
  | null room | bool room b | number room n sendable => exact .atom _ rfl
  | string room t unsplit => exact .string t unsplit
  | array room items each ih => exact .array items ih
  | object room members distinct keys each ih => exact .object members keys ih

/-- An object whose keys are known. -/
theorem sendable_object (room : Nat) (members : List (Text × Json)) (keys : List Text)
    (known : members.map Prod.fst = keys) (distinct : keys.Nodup) (unsplit : ∀ key ∈ keys, key.Unsplit)
    (each : ∀ member ∈ members, Sendable room member.2) : Sendable (room + 1) (.object members) := by
  subst known
  refine .object room members distinct ?_ each
  exact fun member inMembers => unsplit member.1 (List.mem_map_of_mem inMembers)

/-! ## Bytes -/

/-- The line of bytes that a value is sent as. -/
def wire (v : Json) : List UInt8 := Utf8.encode (v.render ++ "\n")

/-- The value that some bytes are read as, if they are one. -/
def ofWire? (bytes : List UInt8) : Option Json :=
  (Utf8.decode bytes).toOption.bind fun t => (parse t).toOption

theorem decode_wire (v : Json) (strict : v.isStrict = true) :
    Utf8.decode v.wire = .ok (v.render ++ "\n") := by
  have printable := oneLine_of_spells (spells_render v strict)
  have lineEnd : Text.Ascii "\n" := by decide
  refine Utf8.decode_encode_of_ascii _ ?_
  intro c member
  exact (List.mem_append.mp member).elim (ascii_of_oneLine _ printable c) (lineEnd c)

theorem parse_wire (v : Json) (sendable : Sendable fullRoom v) : parse (v.render ++ "\n") = .ok v := by
  have spelled := spells_render v (isStrict_of_sendable fullRoom v sendable)
  have blank : ∀ c ∈ ("\n" : Text), Input.isBlank c = true := by decide
  exact parse_of_spells v.render v spelled sendable "\n" blank

theorem ofWire?_wire (v : Json) (sendable : Sendable fullRoom v) : ofWire? v.wire = some v := by
  rw [ofWire?, decode_wire v (isStrict_of_sendable fullRoom v sendable)]
  show (parse (v.render ++ "\n")).toOption = some v
  rw [parse_wire v sendable]
  rfl

/-- What is read off bytes splits no pair, whatever the bytes are. -/
theorem unsplit_of_ofWire? (bytes : List UInt8) (v : Json) (read : ofWire? bytes = some v) :
    v.Unsplit := by
  unfold ofWire? at read
  cases decoded : Utf8.decode bytes with
  | error refusal => simp [decoded, Except.toOption] at read
  | ok t =>
      cases parsed : parse t with
      | error e => simp [decoded, parsed, Except.toOption] at read
      | ok w =>
          have same : w = v := by simpa [decoded, parsed, Except.toOption] using read
          exact same ▸ unsplit_of_parse t (Utf8.scalar_of_decode bytes t decoded) w parsed

end Json

end ParenCalc
