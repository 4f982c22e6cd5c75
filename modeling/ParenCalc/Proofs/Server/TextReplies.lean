import ParenCalc.Proofs.Server.Requests
/-!
# The reply to a text

A text that is sent to a server for evaluation is answered with an admissible value, or with a fault
that the sender can mend.  All of these can be written as JSON but one: a division by zero reports
the value that it divides, and a fold of divisions may have come to an infinity by then.  JSON has no
infinities, and the sender gets an apology instead of the fault.
-/
set_option autoImplicit false

namespace ParenCalc

/-! ## What JSON can write -/

theorem Json.isStrict_number (n : Number) (admissible : n.isAdmissible = true) :
    (number n).isStrict = true := by
  cases n with
  | int i => rfl
  | float x => exact admissible

theorem Json.areStrict_numbers (operands : List Number)
    (admissible : ∀ n ∈ operands, n.isAdmissible = true) :
    areStrict (operands.map number) = true := by
  induction operands with
  | nil => rfl
  | cons n rest ih =>
      have first := isStrict_number n (admissible n List.mem_cons_self)
      have later := ih fun m member => admissible m (List.mem_cons_of_mem n member)
      rw [List.map_cons, areStrict, first, later]
      rfl

namespace Reply

theorem line_of_isStrict (reply : Reply) (strict : reply.toJson.isStrict = true) :
    reply.line = reply.toJson.render ++ "\n" := by
  rw [line, if_pos strict]

theorem line_of_not_isStrict (reply : Reply) (loose : reply.toJson.isStrict = false) :
    reply.line = broken.line := by
  have apology : broken.toJson.isStrict = true := rfl
  rw [line, if_neg (by simp [loose]), line, if_pos apology]

/-- A fault that reports an infinity: the one that a division by zero was about to divide. -/
def ReportsInfinity (reply : Reply) : Prop :=
  ∃ negative divisor,
    reply = .fault (ArithmeticFault.divisionByZero (.float (.infinite negative)) divisor).report

theorem isStrict_result (value : Json) :
    (result value).toJson.isStrict = value.isStrict := by
  show (true && (value.isStrict && true)) = value.isStrict
  simp

theorem isStrict_of_operation (kind : Kind) (message operator : Text) (operands : List Number)
    (admissible : ∀ n ∈ operands, n.isAdmissible = true) :
    (fault ⟨kind, message, .operation operator operands⟩).toJson.isStrict = true := by
  have strict := Json.areStrict_numbers operands admissible
  simp [toJson, Detail.members, Json.isStrict, Json.areStrictMembers, strict]

theorem not_isStrict_of_reportsInfinity (reply : Reply) (infinite : reply.ReportsInfinity) :
    reply.toJson.isStrict = false := by
  obtain ⟨negative, divisor, rfl⟩ := infinite
  rfl

theorem isStrict_or_reportsInfinity (cause : ArithmeticFault) (grounded : cause.Grounded) :
    (fault cause.report).toJson.isStrict = true ∨ (fault cause.report).ReportsInfinity := by
  cases cause with
  | numericOverflow op operands => exact .inl (isStrict_of_operation _ _ _ operands grounded)
  | integerOverflow op operands => exact .inl (isStrict_of_operation _ _ _ operands grounded)
  | divisionByZero dividend divisor =>
      obtain ⟨running, admissible⟩ := grounded
      have both (finite : dividend.isAdmissible = true) :
          ∀ n ∈ [dividend, divisor], n.isAdmissible = true := by
        simp [finite, admissible]
      cases dividend with
      | int i => exact .inl (isStrict_of_operation _ _ _ [.int i, divisor] (both running))
      | float x =>
          cases x with
          | nan => cases running
          | infinite negative => exact .inr ⟨negative, divisor, rfl⟩
          | finite negative significand power canonical =>
              exact .inl (isStrict_of_operation _ _ _ _ (both rfl))

/-- What a text may be answered with. -/
def SuitsText (reply : Reply) : Prop :=
  (∃ n : Number, reply = .result (.number n) ∧ n.isAdmissible = true) ∨
    ∃ report, reply = .fault report ∧
      report.kind.category ∈ (["bad-input", "not-found"] : List Text)

end Reply

theorem Registry.suitsText_of_responds (r : Registry) (id code : Text) (answered : Reply × Registry)
    (responds : r.Responds (.eval id code) answered) :
    answered.1.SuitsText ∧
      (answered.1.toJson.isStrict = true ∨ answered.1.ReportsInfinity) := by
  cases responds with
  | full limit creates => cases creates
  | missing other =>
      exact ⟨.inr ⟨_, rfl, List.mem_cons_of_mem _ List.mem_cons_self⟩, .inl rfl⟩
  | result value after number =>
      obtain ⟨n, rfl, admissible⟩ := number id code rfl
      refine ⟨.inl ⟨n, rfl, admissible⟩, .inl ?_⟩
      rw [Reply.isStrict_result, Json.isStrict_number n admissible]
  | refused other text cause after evaluates differs =>
      exact ⟨.inr ⟨_, rfl, List.mem_cons_self⟩, .inl rfl⟩
  | mishap other failure after isMishap uses differs =>
      cases isMishap with
      | undefined name => exact ⟨.inr ⟨_, rfl, List.mem_cons_self⟩, .inl rfl⟩
      | arithmetic cause grounded =>
          have strict := Reply.isStrict_or_reportsInfinity cause grounded
          refine ⟨.inr ⟨_, rfl, ?_⟩, strict⟩
          cases cause <;> exact List.mem_cons_self

/-- Whatever a server has been through, and whatever line asks it to evaluate a text: the reply is an
admissible value, or a fault of the category `bad-input` or `not-found`.  It is sent as it is, unless
it reports an infinity; then an apology of the category `internal` is sent instead. -/
theorem text_is_answered (policy : Policy) (ids : IdSource) (clock : Binary64) (r : Registry)
    (served : r.Served policy ids clock) (line : List UInt8) (id code : Text)
    (read : Request.ofBytes? line = some (.eval id code)) :
    let reply := (r.answer (.eval id code)).1
    (r.answerLine line).1 = .ok reply.line ∧ reply.SuitsText ∧
      (¬ reply.ReportsInfinity → reply.line = reply.toJson.render ++ "\n") ∧
      (reply.ReportsInfinity → reply.line = Reply.broken.line) := by
  intro reply
  have sound := Registry.sound_of_served policy ids clock r served
  obtain ⟨suits, strict⟩ :=
    r.suitsText_of_responds id code _ (r.responds_answer sound (.eval id code))
  refine ⟨?_, suits, ?_, ?_⟩
  · rw [r.answerLine_of_request line _ read]
  · intro finite
    exact reply.line_of_isStrict (strict.resolve_right finite)
  · intro infinite
    exact reply.line_of_not_isStrict (reply.not_isStrict_of_reportsInfinity infinite)

/-- A fold of divisions that comes to a zero among its operands while it is finite. -/
theorem division_by_zero_is_answered :
    let ids := IdSource.ofScript ["s"] 0
    let r := ((Registry.start ⟨none, none⟩ ids (.zero false)).perform .create).2
    let line := Utf8.encode
      "\x7b\"cmd\": \"eval\", \"session\": \"s\", \"code\": \"(/ 1.0e308 10 0)\"\x7d"
    let reply := (r.answer (.eval "s" "(/ 1.0e308 10 0)")).1
    (r.answerLine line).1 = .ok reply.line ∧ reply.SuitsText := by
  intro ids r line reply
  have served : r.Served ⟨none, none⟩ ids (.zero false) := .action .create _ .start
  have read : Request.ofBytes? line = some (.eval "s" "(/ 1.0e308 10 0)") := by decide +kernel
  have answered := text_is_answered _ ids _ r served line _ _ read
  exact ⟨answered.1, answered.2.1⟩

/-- A fold of divisions that has come to an infinity when it meets a zero: the text gets no answer
but the apology. -/
theorem overflowing_division_is_not_answered :
    let ids := IdSource.ofScript ["s"] 0
    let r := ((Registry.start ⟨none, none⟩ ids (.zero false)).perform .create).2
    let line := Utf8.encode
      "\x7b\"cmd\": \"eval\", \"session\": \"s\", \"code\": \"(/ 1.0e308 0.1 0)\"\x7d"
    r.Served ⟨none, none⟩ ids (.zero false) ∧
      Request.ofBytes? line = some (.eval "s" "(/ 1.0e308 0.1 0)") ∧
      (r.answerLine line).1.toOption = some Reply.broken.line ∧
      Reply.broken.field? "category" = some (.string "internal") := by
  intro ids r line
  refine ⟨.action .create _ .start, by decide +kernel, ?_, rfl⟩
  dsimp only [r, ids]
  rw [Registry.create_start]
  decide +kernel

end ParenCalc
