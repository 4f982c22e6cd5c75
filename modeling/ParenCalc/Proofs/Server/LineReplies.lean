import ParenCalc.Proofs.Json.Reading
import ParenCalc.Proofs.Server.Requests
import ParenCalc.Proofs.Text.Utf8
/-!
# The reply to a line

Whatever bytes a line consists of, it gets one reply, which is one object of JSON proper on one line,
as long as reading the line stays within the limits.  A line that goes past a limit gets no reply: it
has an integer too long or values too deeply nested, and that shows in its text.
-/
set_option autoImplicit false

namespace ParenCalc

theorem Reply.field?_ok (reply : Reply) : ∃ b, reply.field? "ok" = some (.bool b) := by
  cases reply with
  | result value => exact ⟨true, rfl⟩
  | fault report | invalid cause | broken => exact ⟨false, rfl⟩

/-- The reply that a line states: the reply itself, or the apology for one that JSON cannot write. -/
def Reply.stated (reply : Reply) : Reply := if reply.toJson.isStrict then reply else broken

theorem Reply.isStrict_stated (reply : Reply) : reply.stated.toJson.isStrict = true := by
  unfold stated
  split
  · assumption
  · rfl

theorem Reply.line_eq_render (reply : Reply) :
    reply.line = reply.stated.toJson.render ++ "\n" := by
  unfold line stated
  split <;> rfl

namespace Registry

/-- A line of bytes is answered with a reply, the text of which is sent with a line end. -/
structure Answered (bytes : List UInt8) (r : Registry) (reply : Reply) (t : Text) : Prop where
  sent : (r.answerLine bytes).1 = .ok (t ++ "\n")
  strict : Json.Spells t reply.toJson
  oneLine : Json.OneLine t
  ok : ∃ b, reply.field? "ok" = some (.bool b)
  invalid : Request.ofBytes? bytes = none →
    reply.field? "category" = some (.string "invalid-request") ∧ (r.answerLine bytes).2 = r
  request : ∀ request, Request.ofBytes? bytes = some request →
    reply = (r.answer request).1.stated ∧ (r.answerLine bytes).2 = (r.answer request).2

theorem answered_of_strict (bytes : List UInt8) (r after : Registry) (reply : Reply)
    (answer : r.answerLine bytes = (.ok reply.line, after))
    (invalid : Request.ofBytes? bytes = none →
      reply.stated.field? "category" = some (.string "invalid-request") ∧ after = r)
    (request : ∀ request, Request.ofBytes? bytes = some request →
      reply = (r.answer request).1 ∧ after = (r.answer request).2) :
    Answered bytes r reply.stated reply.stated.toJson.render := by
  have spelled := Json.spells_render reply.stated.toJson reply.isStrict_stated
  refine ⟨?_, spelled, Json.oneLine_of_spells spelled, reply.stated.field?_ok, ?_, ?_⟩
  · rw [answer, reply.line_eq_render]
  · rw [answer]
    exact invalid
  · intro other some
    obtain ⟨same, left⟩ := request other some
    rw [answer, same]
    exact ⟨rfl, left⟩

end Registry

/-! ## Integers past the limit -/

theorem Utf8.encode_digits (digits : List Nat) (valid : Digits.Valid digits) :
    encode (Digits.text digits) = digits.map fun d => UInt8.ofNat (48 + d) := by
  have one : ∀ d : Fin 10, encodeOne (.ofDigit d) = [UInt8.ofNat (48 + d)] := by decide
  induction digits with
  | nil => rfl
  | cons d rest ih =>
      have first := one ⟨d, valid d List.mem_cons_self⟩
      have later := ih fun e member => valid e (List.mem_cons_of_mem d member)
      rw [Digits.text, List.map_cons, encode, List.flatMap_cons, first, List.map_cons, ← later]
      rfl

/-- A line that is an integer of too many digits gets no reply. -/
theorem Registry.answerLine_of_long (r : Registry) (digits : List Nat) (valid : Digits.Valid digits)
    (whole : Digits.Whole digits) (long : Numeral.maxDigits < digits.length) :
    r.answerLine (digits.map fun d => UInt8.ofNat (48 + d)) = (.error .digits, r) := by
  have ascii := Json.ascii_of_oneLine _ (Json.oneLine_digits digits valid)
  have decoded := Utf8.decode_encode_of_ascii _ ascii
  have parsed := Json.parse_long digits valid whole long
  simp only [answerLine, answerBytes, ← Utf8.encode_digits digits valid, decoded, parsed]
  rfl

/-! ## Every line -/

/-- Every line of bytes gets one reply, or reading it goes past a limit.  A reply is one object of
JSON proper on one line of ASCII that has the field `ok`; it is of the category `invalid-request`
when the line is no request, and then nothing has changed, and otherwise it is the answer to the
request, or an apology for an answer that JSON cannot write.  A line that goes past a limit gets no
reply and changes nothing; it has an integer of too many digits, or too many brackets that open. -/
theorem line_is_answered (bytes : List UInt8) (r : Registry) :
    (∃ reply t, r.Answered bytes reply t) ∨
    ∃ text overrun, Utf8.decode bytes = .ok text ∧
      Json.Overrun.Shown Json.fullRoom text overrun ∧ r.answerLine bytes = (.error overrun, r) := by
  have led := r.leadsTo_answerLine bytes
  generalize answer : r.answerLine bytes = answered at led
  cases led with
  | overrun text overrun decoded parsed =>
      exact .inr ⟨text, overrun, decoded, Json.shown_of_parse text overrun parsed, rfl⟩
  | invalid cause none =>
      refine .inl ⟨_, _, Registry.answered_of_strict bytes r r (.invalid cause) answer ?_ ?_⟩
      · intro _
        exact ⟨rfl, rfl⟩
      · intro request some
        simp [none] at some
  | request request some =>
      refine .inl ⟨_, _, Registry.answered_of_strict bytes r _ _ answer ?_ ?_⟩
      · intro none
        simp [some] at none
      · intro other same
        rw [some] at same
        cases same
        exact ⟨rfl, rfl⟩

/-- An integer of one digit too many: the line is JSON proper, and it gets no reply. -/
theorem long_integer_is_not_answered :
    let r := Registry.start ⟨none, none⟩ (.ofScript [] 0) (.zero false)
    r.answerLine (List.replicate 4301 57) = (.error .digits, r) := by
  intro r
  have valid : Digits.Valid (List.replicate 4301 9) := fun d member => by
    rw [List.eq_of_mem_replicate member]
    decide
  have whole (more : Nat) : Digits.Whole (List.replicate (more + 1) 9) :=
    ⟨List.cons_ne_nil 9 _, fun leading => absurd (Option.some.inj leading) (by decide)⟩
  have nines := r.answerLine_of_long _ valid (whole 4300) (by rw [List.length_replicate]; decide)
  rwa [List.map_replicate] at nines

end ParenCalc
