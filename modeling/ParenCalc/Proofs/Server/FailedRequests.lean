import ParenCalc.Proofs.Server.Requests
/-!
# Failed requests

A request that fails leaves the registry as it was, but for what a text has done before it failed:
a text that is refused has done nothing, and one that meets with a mishap has made some of its own
definitions.  Which of these it was can be told from the reply.
-/
set_option autoImplicit false

namespace ParenCalc

/-! ## The fields of replies -/

/-- The kind of error that a reply reports, if it is one of the language. -/
def Reply.kind? : Reply → Option Kind
  | .fault report => some report.kind
  | _ => none

theorem Kind.name_inj (a b : Kind) (same : a.name = b.name) : a = b := by
  revert same
  cases a <;> cases b <;> decide

theorem Kind.eq_of_category (kind : Kind)
    (outside : kind.category ∈ (["invalid-request", "not-found", "unavailable"] : List Text)) :
    kind = .sessionNotFound ∨ kind = .sessionLimit := by
  revert outside
  cases kind <;> decide

namespace Reply

theorem error_iff_kind? (reply : Reply) (kind : Kind) :
    reply.field? "error" = some (.string kind.name) ↔ reply.kind? = some kind := by
  cases reply with
  | fault report =>
      show some (Json.string report.kind.name) = some (.string kind.name) ↔ some report.kind = _
      rw [Option.some.injEq, Json.string.injEq, Option.some.injEq]
      exact ⟨report.kind.name_inj kind, congrArg Kind.name⟩
  | result value | invalid cause | broken =>
      show (none : Option Json) = some _ ↔ (none : Option Kind) = some kind
      simp

/-- A reply to a request that has not come to any session. -/
def IsOutside (reply : Reply) : Prop :=
  (∃ cause, reply = .invalid cause) ∨ reply.kind? = some .sessionNotFound ∨
    reply.kind? = some .sessionLimit

theorem isOutside_of_category (reply : Reply) (category : Text)
    (outside : category ∈ (["invalid-request", "not-found", "unavailable"] : List Text))
    (field : reply.field? "category" = some (.string category)) : reply.IsOutside := by
  cases reply with
  | fault report =>
      have same : some (Json.string report.kind.category) = some (.string category) := field
      rw [← Json.string.inj (Option.some.inj same)] at outside
      rcases report.kind.eq_of_category outside with known | known
      · exact .inr (.inl (congrArg some known))
      · exact .inr (.inr (congrArg some known))
  | invalid cause => exact .inl ⟨cause, rfl⟩
  | result value => cases (field : none = some _)
  | broken =>
      have same : some (Json.string "internal") = some (.string category) := field
      rw [← Json.string.inj (Option.some.inj same)] at outside
      exact absurd outside (by decide)

end Reply

/-! ## The kinds of failures -/

theorem Failure.kind?_of_isMishap (failure : Failure) (isMishap : failure.IsMishap) :
    (Reply.ofFailure failure).kind? = some .undefined ∨
      (Reply.ofFailure failure).kind? = some .arithmetic := by
  cases isMishap with
  | undefined name => exact .inl rfl
  | arithmetic cause grounded => cases cause <;> exact .inr rfl

namespace Registry

section Kinds

variable (r after : Registry) (request : Request) (reply : Reply)

theorem eq_of_isOutside (responds : r.Responds request (reply, after))
    (outside : reply.IsOutside) : after = r := by
  cases responds with
  | full limit creates => rfl
  | missing id => rfl
  | result value after number => simp [Reply.IsOutside, Reply.kind?] at outside
  | refused id code cause after evaluates differs =>
      simp [Reply.IsOutside, Reply.kind?, Fault.report, Report.malformed] at outside
  | mishap id failure after isMishap uses differs =>
      have own := failure.kind?_of_isMishap isMishap
      rcases outside with ⟨cause, invalid⟩ | kind
      · simp [invalid, Reply.kind?] at own
      · rcases own with own | own <;> simp [own] at kind

theorem differsAt_of_kind_malformed (responds : r.Responds request (reply, after))
    (kind : reply.kind? = some .malformed) :
    ∃ id code, request = .eval id code ∧ DiffersAt id Session.OnlyUsed r after := by
  cases responds with
  | full limit creates => simp [Reply.kind?, Fault.report, Report.sessionLimit] at kind
  | missing id => simp [Reply.kind?, Fault.report, Report.sessionNotFound] at kind
  | result value after number => simp [Reply.kind?] at kind
  | refused id code cause after evaluates differs => exact ⟨id, code, evaluates, differs⟩
  | mishap id failure after isMishap uses differs =>
      rcases failure.kind?_of_isMishap isMishap with own | own <;> simp [own] at kind

theorem differsAt_of_kind_mishap (responds : r.Responds request (reply, after))
    (kind : reply.kind? = some .undefined ∨ reply.kind? = some .arithmetic) :
    ∃ id, request.used? = some id ∧
      DiffersAt id (Session.Redefined fun x => request.Defines x) r after := by
  cases responds with
  | full limit creates => simp [Reply.kind?, Fault.report, Report.sessionLimit] at kind
  | missing id => simp [Reply.kind?, Fault.report, Report.sessionNotFound] at kind
  | result value after number => simp [Reply.kind?] at kind
  | refused id code cause after evaluates differs =>
      simp [Reply.kind?, Fault.report, Report.malformed] at kind
  | mishap id failure after isMishap uses differs => exact ⟨id, uses, differs⟩

end Kinds

end Registry

/-- Whatever a server has been through: a request that is answered as invalid, with a session that is
not found or with a full registry changes nothing at all.  A request that is answered with a syntax
error is the evaluation of a text, and then at most the time at which its session was last used
differs.  After an undefined variable or an arithmetic error at most the session that the request
uses differs: no binding is gone, and only names that its text defines may have another value. -/
theorem failed_request_leaves_state (policy : Policy) (ids : IdSource) (clock : Binary64)
    (r : Registry) (served : r.Served policy ids clock) (v : Json) :
    let reply := (r.answerJson v).1
    let after := (r.answerJson v).2
    ((∃ category ∈ (["invalid-request", "not-found", "unavailable"] : List Text),
      reply.field? "category" = some (.string category)) → after = r) ∧
    (reply.field? "error" = some (.string "SyntaxError") →
      ∃ id code, Request.ofJson v = .ok (.eval id code) ∧
        Registry.DiffersAt id Session.OnlyUsed r after) ∧
    (reply.field? "error" = some (.string "UndefinedVariableError") ∨
        reply.field? "error" = some (.string "ArithmeticError") →
      ∃ request id, Request.ofJson v = .ok request ∧ request.used? = some id ∧
        Registry.DiffersAt id (Session.Redefined fun x => request.Defines x) r after) := by
  intro reply after
  have sound := Registry.sound_of_served policy ids clock r served
  cases known : Request.ofJson v with
  | error cause =>
      have answered : r.answerJson v = (.invalid cause, r) := by rw [Registry.answerJson, known]
      have same : after = r := congrArg Prod.snd answered
      have noKind : reply.kind? = none := congrArg (fun a => a.1.kind?) answered
      refine ⟨fun _ => same, ?_, ?_⟩
      · intro error
        have kind := (reply.error_iff_kind? .malformed).mp error
        simp [noKind] at kind
      · rintro (error | error)
        · have kind := (reply.error_iff_kind? .undefined).mp error
          simp [noKind] at kind
        · have kind := (reply.error_iff_kind? .arithmetic).mp error
          simp [noKind] at kind
  | ok request =>
      have responds : r.Responds request (reply, after) := by
        have answered : r.answerJson v = r.answer request := by rw [Registry.answerJson, known]
        show r.Responds request (r.answerJson v)
        rw [answered]
        exact r.responds_answer sound request
      refine ⟨?_, ?_, ?_⟩
      · rintro ⟨category, outside, field⟩
        exact r.eq_of_isOutside after request reply responds
          (reply.isOutside_of_category category outside field)
      · intro error
        have kind := (reply.error_iff_kind? .malformed).mp error
        obtain ⟨id, code, evaluates, differs⟩ :=
          r.differsAt_of_kind_malformed after request reply responds kind
        exact ⟨id, code, by rw [evaluates], differs⟩
      · intro error
        have kind : reply.kind? = some .undefined ∨ reply.kind? = some .arithmetic :=
          error.imp (reply.error_iff_kind? .undefined).mp (reply.error_iff_kind? .arithmetic).mp
        obtain ⟨id, uses, differs⟩ :=
          r.differsAt_of_kind_mishap after request reply responds kind
        exact ⟨request, id, rfl, uses, differs⟩

/-- A text that defines a name and then meets with one that is not bound. -/
theorem undefined_operand_leaves_rest :
    let ids := IdSource.ofScript ["s"] 0
    let r := ((Registry.start ⟨none, none⟩ ids (.zero false)).perform .create).2
    let v : Json := .object [("cmd", .string "eval"), ("session", .string "s"),
      ("code", .string "(+ (define x 1) y)")]
    (r.answerJson v).1.field? "error" = some (.string "UndefinedVariableError") ∧
      ∃ request id, Request.ofJson v = .ok request ∧ request.used? = some id ∧
        Registry.DiffersAt id (Session.Redefined fun x => request.Defines x) r
          (r.answerJson v).2 := by
  intro ids r v
  have served : r.Served ⟨none, none⟩ ids (.zero false) := .action .create _ .start
  have kind : (r.answerJson v).1.kind? = some .undefined := by
    dsimp only [r, ids, v]
    rw [Registry.create_start]
    decide +kernel
  have error := ((r.answerJson v).1.error_iff_kind? .undefined).mpr kind
  exact ⟨error, (failed_request_leaves_state _ ids _ r served v).2.2 (.inl error)⟩

end ParenCalc
