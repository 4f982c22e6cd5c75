import ParenCalc.Command.Script
import ParenCalc.Proofs.Eval.Batches
import ParenCalc.Proofs.Eval.Messages
import ParenCalc.Proofs.Eval.Safety
/-!
# The prompt and the script

A prompt asks one interpreter line after line, and every line that is not blank gets one answer on
one line: no text makes the interpreter fail in a way that is not reported.  A script is scanned as
a whole and writes nothing before it is through.  When every line has a value it comes to the same,
since a line scans with its end as without and goes on where the lines before it have come to.
-/
set_option autoImplicit false

namespace ParenCalc

/-! ## Lines and the whole text -/

theorem interpretAll_congr (room : Nat) (text other : Text)
    (same : Scan.ofText text = Scan.ofText other) (s : Scope) :
    EndsAlike (interpretAll room text s) (interpretAll room other s) := by
  rw [interpretAll, interpretAll, same]
  exact Datum.endsAlike_evalEach room text other _ _ rfl _ s

theorem exists_read_of_interpret (room : Nat) (text : Text) (s : Scope) (n : Number)
    (run : (interpret room text s).1 = .ok n) : ∃ d, Datum.read text = .ok d := by
  unfold interpret at run
  cases read : Datum.read text with
  | error cause => simp [read] at run
  | ok d => exact ⟨d, rfl⟩

namespace Interpreter

theorem evalAll_blank (t : Text) (blank : Text.isBlank t = true) (i : Interpreter) :
    i.evalAll t = (.ok [], i) := by
  have spelled := spells_gap t [] [] (List.all_eq_true.mp blank) spells_nil
  rw [List.append_nil] at spelled
  have forms : (Scan.ofText t).forms = ⟨[], none, ⟨[], none⟩⟩ := by
    rw [ofText_of_spells t [] spelled]
    exact Scan.forms_of_none _ _ rfl
  rw [evalAll, interpretAll, forms]
  rfl

/-- A text that scans like one with a value has that value alone. -/
theorem evalAll_of_eval (t line : Text) (same : Scan.ofText line = Scan.ofText t)
    (i after : Interpreter) (n : Number) (run : i.eval line = (.ok n, after)) :
    i.evalAll t = (.ok [n], after) := by
  have readable := exists_read_of_interpret formRoom line i.scope n (congrArg Prod.fst run)
  have alone := stepwise.all_of_one line i after n readable run
  have alike := interpretAll_congr batchRoom line t same i.scope
  rw [interpretAll_scope, interpretAll_scope] at alike
  exact (EndsAlike.of_map scope scope_injective _ _ alike).eq_of_ok [n] after alone

theorem evalAll_append_line (first rest : Text) (i between after : Interpreter)
    (results more : List Number) (firstRun : i.evalAll first = (.ok results, between))
    (restRun : between.evalAll rest = (.ok more, after)) :
    i.evalAll (first ++ CodePoint.ofChar '\n' :: rest) = (.ok (results ++ more), after) := by
  rw [List.append_cons]
  exact stepwise.succeeds first rest i between after results more firstRun restRun

end Interpreter

/-! ## The prompt -/

namespace Prompt

/-- What is written in answer to a line: nothing to a blank one, else the value as the reader would
read it, or the kind and the message of the fault. -/
def written : Option (Except Fault Number) → Text
  | none => []
  | some (.ok value) => value.literal ++ "\n"
  | some (.error cause) => cause.report.kind.name ++ ": " ++ cause.report.message ++ "\n"

/-- One interpreter is asked line after line.  A blank line has no answer; the answer to any other
is what it evaluates to, and the next line meets the interpreter that it leaves. -/
inductive Dialogue : List Text → Interpreter → List (Option (Except Fault Number)) → Prop
  | nil (i : Interpreter) : Dialogue [] i []
  | blank (line : Text) (rest : List Text) (i : Interpreter)
      (answers : List (Option (Except Fault Number))) (blank : Text.isBlank line = true)
      (later : Dialogue rest i answers) : Dialogue (line :: rest) i (none :: answers)
  | answered (line : Text) (rest : List Text) (i between : Interpreter)
      (result : Except Fault Number) (answers : List (Option (Except Fault Number)))
      (solid : Text.isBlank line = false)
      (run : i.eval line = (result.mapError Failure.fault, between))
      (later : Dialogue rest between answers) : Dialogue (line :: rest) i (some result :: answers)

/-- One answer on one line, and a value that the reader would read back. -/
structure OneLine (result : Except Fault Number) : Prop where
  line : ∃ t : Text, t.Unbroken ∧ written (some result) = t ++ "\n"
  value : ∀ n, result = .ok n → Number.ofLiteral? n.literal = some n

theorem unbroken_kind (kind : Kind) : Text.Unbroken kind.name := by
  cases kind <;> decide

/-- Every line is answered, and the interpreter stays good for the next one. -/
theorem answer_of_eval (line : Text) (i : Interpreter) (admissible : Frame.Admissible i.frame) :
    ∃ result between, i.eval line = (result.mapError Failure.fault, between) ∧ OneLine result ∧
      Frame.Admissible between.frame := by
  obtain ⟨answers, grows⟩ := i.answers_eval line admissible
  rcases run : i.eval line with ⟨result, between⟩
  rw [run] at answers grows
  cases result with
  | ok n =>
      have literal := Number.isName_literal n answers
      refine ⟨.ok n, between, rfl, ⟨⟨_, Text.unbroken_of_isName _ literal, rfl⟩, ?_⟩,
        grows.admissible⟩
      rintro _ ⟨⟩
      exact Number.ofLiteral?_literal n answers
  | error failure =>
      obtain ⟨cause, rfl, -⟩ := answers
      have message := unbroken_of_interpret Interpreter.formRoom line (.root i.frame) cause
        (congrArg Prod.fst run)
      have line : Text.Unbroken (cause.report.kind.name ++ ": " ++ cause.report.message) := by
        simp only [Text.unbroken_append]
        exact ⟨⟨unbroken_kind _, by decide⟩, message⟩
      refine ⟨.error cause, between, rfl, ⟨⟨_, line, rfl⟩, ?_⟩, grows.admissible⟩
      rintro _ ⟨⟩

theorem reply_of_run (line : Text) (i between : Interpreter) (result : Except Fault Number)
    (solid : Text.isBlank line = false)
    (run : i.eval line = (result.mapError Failure.fault, between)) :
    reply line i = (written (some result), between) := by
  rw [reply, solid, run]
  cases result <;> rfl

/-- The dialogue over any lines goes on to their end, and what is written is a prompt before every
answer and one more for the end. -/
theorem dialogue_of_lines (lines : List Text) (i : Interpreter)
    (admissible : Frame.Admissible i.frame) :
    ∃ answers, Dialogue lines i answers ∧
      transcriptOf lines i =
        answers.flatMap (fun answer => mark ++ written answer) ++ (mark ++ "\n") ∧
      ∀ result, some result ∈ answers → OneLine result := by
  induction lines generalizing i with
  | nil => exact ⟨[], .nil i, rfl, fun _ member => by cases member⟩
  | cons line rest ih =>
      cases isBlank : Text.isBlank line with
      | true =>
          obtain ⟨answers, later, transcript, each⟩ := ih i admissible
          refine ⟨none :: answers, .blank line rest i answers isBlank later, ?_, ?_⟩
          · rw [transcriptOf, reply, if_pos isBlank, List.flatMap_cons, List.append_assoc,
              ← transcript]
            rfl
          · intro result member
            exact each result ((List.mem_cons.mp member).resolve_left (by simp))
      | false =>
          obtain ⟨result, between, run, oneLine, still⟩ := answer_of_eval line i admissible
          obtain ⟨answers, later, transcript, each⟩ := ih between still
          refine ⟨some result :: answers,
            .answered line rest i between result answers isBlank run later, ?_, ?_⟩
          · rw [transcriptOf, reply_of_run line i between result isBlank run, List.flatMap_cons,
              List.append_assoc, ← transcript]
          · intro other member
            rcases List.mem_cons.mp member with same | among
            · rwa [Option.some.inj same]
            · exact each other among

/-- There is one dialogue over given lines. -/
theorem dialogue_unique (lines : List Text) (i : Interpreter)
    (answers others : List (Option (Except Fault Number))) (dialogue : Dialogue lines i answers)
    (other : Dialogue lines i others) : answers = others := by
  have injective (result once : Except Fault Number)
      (same : result.mapError Failure.fault = once.mapError Failure.fault) : result = once := by
    cases result <;> cases once <;> simp_all [Except.mapError]
  induction dialogue generalizing others with
  | nil i =>
      cases other
      rfl
  | blank line rest i answers blank later ih =>
      cases other with
      | blank _ _ _ others _ otherLater => rw [ih others otherLater]
      | answered _ _ _ _ _ _ solid _ _ => simp [blank] at solid
  | answered line rest i between result answers solid run later ih =>
      cases other with
      | blank _ _ _ _ blank _ => simp [blank] at solid
      | answered _ _ _ next once others _ otherRun otherLater =>
          rw [run, Prod.mk.injEq] at otherRun
          obtain ⟨same, rfl⟩ := otherRun
          rw [injective result once same, ih others otherLater]

/-- A dialogue without faults has the values of the whole text. -/
theorem evalAll_of_dialogue (text : Text) (i : Interpreter)
    (answers : List (Option (Except Fault Number)))
    (dialogue : Dialogue (Text.lines text) i answers)
    (clear : ∀ cause, some (.error cause) ∉ answers) :
    ∃ values after, i.evalAll text = (.ok values, after) ∧
      values.flatMap (fun n => written (some (.ok n))) = answers.flatMap written := by
  induction text using Text.lines_induction generalizing i answers with
  | nil =>
      cases dialogue
      exact ⟨[], i, i.evalAll_blank [] rfl, rfl⟩
  | last t nonempty unbroken =>
      rw [Text.lines_of_unbroken t nonempty unbroken] at dialogue
      cases dialogue with
      | blank _ _ _ answers blank later =>
          cases later
          exact ⟨[], i, i.evalAll_blank t blank, rfl⟩
      | answered _ _ _ between result answers solid run later =>
          cases later
          cases result with
          | error cause => exact absurd List.mem_cons_self (clear cause)
          | ok n => exact ⟨[n], between, i.evalAll_of_eval t t rfl between n run, rfl⟩
  | line first rest unbroken ih =>
      rw [Text.lines_append_line first rest unbroken] at dialogue
      have laterClear (answer : Option (Except Fault Number))
          (answers : List (Option (Except Fault Number)))
          (clear : ∀ cause, some (.error cause) ∉ answer :: answers) :
          ∀ cause, some (.error cause) ∉ answers :=
        fun cause member => clear cause (List.mem_cons_of_mem answer member)
      cases dialogue with
      | blank _ _ _ answers blank later =>
          obtain ⟨values, after, run, same⟩ := ih i answers later (laterClear _ _ clear)
          have firstBlank : Text.isBlank first = true := by
            rw [Text.isBlank, List.all_append, Bool.and_eq_true] at blank
            exact blank.1
          exact ⟨values, after, i.evalAll_append_line first rest i after [] values
            (i.evalAll_blank first firstBlank) run, same⟩
      | answered _ _ _ between result answers solid run later =>
          obtain ⟨values, after, restRun, same⟩ := ih between answers later (laterClear _ _ clear)
          cases result with
          | error cause => exact absurd List.mem_cons_self (clear cause)
          | ok n =>
              have firstRun :=
                i.evalAll_of_eval first _ (Scan.ofText_line first) between n run
              refine ⟨n :: values, after, i.evalAll_append_line first rest between after [n] values
                firstRun restRun, ?_⟩
              rw [List.flatMap_cons, List.flatMap_cons, same]

end Prompt

/-! ## Scripts -/

namespace Script

/-- A form of a source fails with a fault: all forms before it have been evaluated, and it cannot be
evaluated in what they leave, or it cannot be read. -/
inductive Fails (source : Text) (cause : Fault) : Prop
  | form (before after : List Datum) (d : Datum) (values : List Number) (s : Scope)
      (split : (Scan.ofText source).forms.data = before ++ d :: after)
      (evaluated : Datum.evalEach Interpreter.batchRoom source none before Interpreter.fresh.scope =
        (.ok values, s))
      (failed : (d.eval Interpreter.batchRoom source s).1 = .error (.fault cause)) : Fails source cause
  | text (refusal : Malformed) (values : List Number) (s : Scope)
      (found : (Scan.ofText source).forms.fault = some refusal)
      (evaluated : Datum.evalEach Interpreter.batchRoom source none (Scan.ofText source).forms.data
        Interpreter.fresh.scope = (.ok values, s))
      (same : cause = .malformed refusal) : Fails source cause

theorem evalAll_of_fails (source : Text) (cause : Fault) (fails : Fails source cause) :
    (Interpreter.fresh.evalAll source).1 = .error (.fault cause) := by
  change (interpretAll Interpreter.batchRoom source Interpreter.fresh.scope).1 = _
  cases fails with
  | form before after d values s split evaluated failed =>
      rcases run : d.eval Interpreter.batchRoom source s with ⟨result, left⟩
      rw [run] at failed
      dsimp only at failed
      rw [failed] at run
      rw [interpretAll, split, Datum.evalEach_append _ _ _ _ _ _ s values evaluated,
        Datum.evalEach_of_error _ _ _ d after s left _ run]
      rfl
  | text refusal values s found evaluated same =>
      have whole := Datum.evalEach_append _ source (some refusal) _ [] _ s values evaluated
      rw [List.append_nil] at whole
      rw [interpretAll, found, whole, same]
      rfl

/-- Data that are not all evaluated: one of them fails after those before it, or they end with a
fault. -/
theorem failure_of_evalEach (room : Nat) (text : Text) (fault : Option Malformed)
    (data : List Datum) (s after : Scope) (failure : Failure)
    (run : Datum.evalEach room text fault data s = (.error failure, after)) :
    (∃ before d rest values between, data = before ++ d :: rest ∧
      Datum.evalEach room text none before s = (.ok values, between) ∧
      (d.eval room text between).1 = .error failure) ∨
    ∃ cause values, fault = some cause ∧ Datum.evalEach room text none data s = (.ok values, after) ∧
      failure = .fault (.malformed cause) := by
  induction data generalizing s with
  | nil =>
      cases fault with
      | none => simp [Datum.evalEach] at run
      | some cause =>
          simp only [Datum.evalEach, Prod.mk.injEq, Except.error.injEq] at run
          exact .inr ⟨cause, [], rfl, by rw [Datum.evalEach, run.2], run.1.symm⟩
  | cons d rest ih =>
      rcases first : d.eval room text s with ⟨result, between⟩
      cases result with
      | error early =>
          rw [Datum.evalEach_of_error room text fault d rest s between early first] at run
          simp only [Prod.mk.injEq, Except.error.injEq] at run
          refine .inl ⟨[], d, rest, [], s, rfl, rfl, ?_⟩
          rw [first, run.1]
      | ok value =>
          rw [Datum.evalEach_of_ok room text fault d rest s between value first] at run
          rcases ih between (error_of_thenMap run) with inside | atEnd
          · obtain ⟨before, e, others, values, last, split, evaluated, failed⟩ := inside
            refine .inl ⟨d :: before, e, others, value :: values, last, ?_, ?_, failed⟩
            · rw [split, List.cons_append]
            · rw [Datum.evalEach_of_ok room text none d before s between value first, evaluated]
              rfl
          · obtain ⟨cause, values, found, evaluated, same⟩ := atEnd
            refine .inr ⟨cause, value :: values, found, ?_, same⟩
            rw [Datum.evalEach_of_ok room text none d rest s between value first, evaluated]
            rfl

theorem fails_of_evalAll (source : Text) (cause : Fault)
    (failed : (Interpreter.fresh.evalAll source).1 = .error (.fault cause)) :
    Fails source cause := by
  change (interpretAll Interpreter.batchRoom source Interpreter.fresh.scope).1 = _ at failed
  rcases run : interpretAll Interpreter.batchRoom source Interpreter.fresh.scope with ⟨result, after⟩
  rw [run] at failed
  dsimp only at failed
  rw [failed] at run
  rcases failure_of_evalEach _ source _ _ _ after _ run with inside | atEnd
  · obtain ⟨before, d, rest, values, between, split, evaluated, formFails⟩ := inside
    exact .form before rest d values between split evaluated formFails
  · obtain ⟨refusal, values, found, evaluated, same⟩ := atEnd
    exact .text refusal values after found evaluated (by cases same; rfl)

/-- A script fails with the fault of a form, and no output, or no form of it fails. -/
theorem evaluate_cases (source : Text) :
    (∃ cause, Fails source.foldLineEnds cause ∧
      evaluate source =
        ⟨1, [], cause.report.kind.name ++ ": " ++ cause.report.message ++ "\n"⟩) ∨
    (∀ cause, ¬ Fails source.foldLineEnds cause) ∧
      ∃ values, (Interpreter.fresh.evalAll source.foldLineEnds).1 = .ok values ∧
        evaluate source = ⟨0, values.flatMap fun n => Prompt.written (some (.ok n)), []⟩ := by
  have answers :=
    (Interpreter.fresh.answers_evalAll source.foldLineEnds Frame.admissible_empty).1
  unfold evaluate
  cases result : (Interpreter.fresh.evalAll source.foldLineEnds).1 with
  | error failure =>
      rw [result] at answers
      obtain ⟨cause, rfl, -⟩ := answers
      exact .inl ⟨cause, fails_of_evalAll _ cause result, rfl⟩
  | ok values =>
      refine .inr ⟨fun cause fails => ?_, values, rfl, rfl⟩
      rw [evalAll_of_fails _ cause fails] at result
      cases result

end Script

/-- The prompt is in step with its input, whatever it is, and the script with the prompt.  The
prompt ends well; it writes a prompt before every answer of one interpreter, asked line after line,
and one more at the end, and an answer is on one line.  If no line meets with a fault, a script of
the same text writes just these answers.  A script with a form that fails writes nothing but the
fault of that form, as an error. -/
theorem prompt_and_script_keep_step (input : Text) :
    (∃ answers, Prompt.Dialogue (Text.lines input) .fresh answers ∧
      Prompt.outcome input =
        ⟨0, answers.flatMap (fun answer => Prompt.mark ++ Prompt.written answer) ++
          (Prompt.mark ++ "\n"), []⟩ ∧
      (∀ result, some result ∈ answers → Prompt.OneLine result) ∧
      (CodePoint.ofChar '\r' ∉ input → (∀ cause, some (.error cause) ∉ answers) →
        Script.evaluate input = ⟨0, answers.flatMap Prompt.written, []⟩)) ∧
    (∀ cause, Script.Fails input.foldLineEnds cause → Script.evaluate input =
      ⟨1, [], cause.report.kind.name ++ ": " ++ cause.report.message ++ "\n"⟩) ∧
    ((∀ cause, ¬ Script.Fails input.foldLineEnds cause) → ∃ values,
      (Interpreter.fresh.evalAll input.foldLineEnds).1 = .ok values ∧ Script.evaluate input =
        ⟨0, values.flatMap fun n => Prompt.written (some (.ok n)), []⟩) ∧
    ∀ bytes, Utf8.decode bytes = .ok input → Script.run bytes = .ok (Script.evaluate input) := by
  refine ⟨?_, ?_, ?_, ?_⟩
  · obtain ⟨answers, dialogue, transcript, oneLine⟩ :=
      Prompt.dialogue_of_lines (Text.lines input) .fresh Frame.admissible_empty
    refine ⟨answers, dialogue, ?_, oneLine, ?_⟩
    · rw [Prompt.outcome, Prompt.transcript, transcript]
    · intro noReturn clear
      obtain ⟨values, after, run, same⟩ :=
        Prompt.evalAll_of_dialogue input .fresh answers dialogue clear
      rw [Script.evaluate, Text.foldLineEnds_of_not_mem input noReturn, run, ← same]
      rfl
  · intro cause fails
    rw [Script.evaluate, Script.evalAll_of_fails _ cause fails]
    rfl
  · intro noneFails
    rcases Script.evaluate_cases input with ⟨cause, fails, -⟩ | ⟨-, written⟩
    · exact absurd fails (noneFails cause)
    · exact written
  · intro bytes decoded
    rw [Script.run, decoded]
    rfl

/-- A variable is kept across a blank line, and a script fails after its first form. -/
theorem kept_variable_keeps_step :
    (∃ answers, Prompt.Dialogue (Text.lines "(define x 2)\n \n(* x 3)") .fresh answers ∧
      (∀ cause, some (.error cause) ∉ answers) ∧
      Script.evaluate "(define x 2)\n \n(* x 3)" = ⟨0, answers.flatMap Prompt.written, []⟩) ∧
    ∃ cause, Script.Fails (Text.foldLineEnds "(+ 1 2)\n(+ nope 1)") cause ∧
      Script.evaluate "(+ 1 2)\n(+ nope 1)" =
        ⟨1, [], cause.report.kind.name ++ ": " ++ cause.report.message ++ "\n"⟩ := by
  have evalsTo (line : Text) (i : Interpreter) (n : Number)
      (value : (i.eval line).1.toOption = some n) :
      i.eval line = ((Except.ok n).mapError Failure.fault, (i.eval line).2) := by
    rcases run : i.eval line with ⟨result, after⟩
    rw [run] at value
    cases result with
    | error failure => simp [Except.toOption] at value
    | ok m =>
        rw [Option.some.inj value]
        rfl
  constructor
  · have lines : Text.lines "(define x 2)\n \n(* x 3)" = ["(define x 2)\n", " \n", "(* x 3)"] := by
      decide
    have expected : Prompt.Dialogue ["(define x 2)\n", " \n", "(* x 3)"] .fresh
        [some (.ok (.int 2)), none, some (.ok (.int 6))] :=
      .answered _ _ _ _ (.ok (.int 2)) _ (by decide) (evalsTo _ _ _ (by decide +kernel))
        (.blank _ _ _ _ (by decide)
          (.answered _ _ _ _ (.ok (.int 6)) _ (by decide) (evalsTo _ _ _ (by decide +kernel))
            (.nil _)))
    obtain ⟨answers, dialogue, -, -, script⟩ :=
      (prompt_and_script_keep_step "(define x 2)\n \n(* x 3)").1
    have clear : ∀ cause, some (.error cause) ∉ answers := by
      rw [lines] at dialogue
      rw [Prompt.dialogue_unique _ _ answers _ dialogue expected]
      intro cause
      simp
    exact ⟨answers, dialogue, clear, script (by decide) clear⟩
  · have failed : (Script.evaluate "(+ 1 2)\n(+ nope 1)").code = 1 := by decide +kernel
    rcases Script.evaluate_cases "(+ 1 2)\n(+ nope 1)" with ⟨cause, fails, -⟩ | ⟨-, values, -, good⟩
    · exact ⟨cause, fails, (prompt_and_script_keep_step "(+ 1 2)\n(+ nope 1)").2.1 cause fails⟩
    · rw [good] at failed
      cases failed

end ParenCalc
