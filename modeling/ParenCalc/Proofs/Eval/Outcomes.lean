import ParenCalc.Proofs.Eval.Definitions
import ParenCalc.Proofs.Eval.Failures
/-!
# How a text turns out

A text is read and built before any of it is evaluated.  So there are three outcomes: the text is
refused and nothing has happened; it has a value; or it has met with a mishap on the way, and what it
had defined by then stays.  In the last two only names that the text defines may have another value.
-/
set_option autoImplicit false

namespace ParenCalc

theorem Failure.malformed_of_inText (text : Text) (failure : Failure) (refusal : failure.IsRefusal) :
    ∃ cause, failure.inText text = .fault (.malformed cause) := by
  rcases refusal with rfl | ⟨cause, rfl⟩
  · exact ⟨.tooDeep text.excerpt, rfl⟩
  · exact ⟨cause, rfl⟩

/-- A text is refused as a whole, or it denotes a well-formed expression that is evaluated. -/
theorem interpret_cases (room : Nat) (text : Text) (s : Scope) :
    (∃ cause, interpret room text s = (.error (.fault (.malformed cause)), s)) ∨
    ∃ e : Expr, Datum.read text = .ok e.toDatum ∧ e.WellFormed ∧
      interpret room text s = e.eval s := by
  unfold interpret
  cases run : Datum.read text with
  | error cause => exact .inl ⟨cause, rfl⟩
  | ok d =>
      dsimp only [Datum.eval]
      cases built : Expr.build room d with
      | error failure =>
          have refusal := Expr.isRefusal_of_build room d failure built
          obtain ⟨cause, refused⟩ := failure.malformed_of_inText text refusal
          dsimp only
          rw [refused]
          exact .inl ⟨cause, rfl⟩
      | ok e =>
          have same : e.toDatum = d := Expr.toDatum_of_build room d e built
          have readable := Datum.readable_of_read text d run
          exact .inr ⟨e, by rw [same], Expr.wellFormed_of_build room d e readable built, rfl⟩

namespace Interpreter

/-- The three outcomes of a text, with the interpreter that each of them leaves. -/
inductive TurnsOut (text : Text) (i : Interpreter) : Except Failure Number × Interpreter → Prop
  | value (n : Number) (after : Interpreter) (admissible : n.isAdmissible = true)
      (step : Frame.Extends (fun x => text.Defines x) i.frame after.frame) :
      TurnsOut text i (.ok n, after)
  | refused (cause : Malformed) : TurnsOut text i (.error (.fault (.malformed cause)), i)
  | mishap (failure : Failure) (after : Interpreter) (isMishap : failure.IsMishap)
      (step : Frame.Extends (fun x => text.Defines x) i.frame after.frame) :
      TurnsOut text i (.error failure, after)

theorem turnsOut_eval (text : Text) (i : Interpreter) (admissible : Frame.Admissible i.frame) :
    TurnsOut text i (i.eval text) := by
  unfold eval
  rcases interpret_cases formRoom text (.root i.frame) with
    ⟨cause, refused⟩ | ⟨e, denotes, formed, evaluates⟩
  · rw [refused]
    exact .refused cause
  · have root := admissible_root i.frame admissible
    have outcome := (e.evaluates_eval (.root i.frame) formed root).answers
    have mishap := e.isMishap_of_eval (.root i.frame)
    have step : Frame.Extends (fun x => text.Defines x) i.frame (e.eval (.root i.frame)).2.frame :=
      Frame.extends_mono _ _ _ _ (fun x inside => ⟨e.toDatum, denotes, inside⟩)
        (e.extends_eval (.root i.frame))
    rw [evaluates]
    rcases run : e.eval (.root i.frame) with ⟨result, after⟩
    rw [run] at outcome mishap step
    cases result with
    | ok n => exact .value n ⟨after.frame⟩ outcome step
    | error failure => exact .mishap failure ⟨after.frame⟩ (mishap failure formed root rfl) step

end Interpreter

end ParenCalc
