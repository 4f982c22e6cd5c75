import ParenCalc.Proofs.Datum.Joining
import ParenCalc.Proofs.Eval.Alike
import ParenCalc.Proofs.Eval.Completions
/-!
# Forms in sequence

All forms of a text are evaluated in order from one scan, up to the first failure.  Data behind
others are evaluated in what those leave, and so is a text behind a line end: it goes on where the
text before it has come to.  What is left behind, also by a failure on the way, is what the
definitions have bound that were completed by then.
-/
set_option autoImplicit false

namespace ParenCalc

variable (room : Nat)

/-! ## Data one after another -/

namespace Datum

theorem endsAlike_eval (text other : Text) (d : Datum) (s : Scope) :
    EndsAlike (d.eval room text s) (d.eval room other s) := by
  unfold eval
  cases Expr.build room d with
  | error failure => exact .failure _ _ s (failure.akin_inText text other)
  | ok e => exact .refl _

theorem evalEach_of_ok (text : Text) (fault : Option Malformed) (d : Datum) (rest : List Datum)
    (s between : Scope) (value : Number) (run : d.eval room text s = (.ok value, between)) :
    evalEach room text fault (d :: rest) s =
      thenMap (value :: ·) (evalEach room text fault rest between) := by
  rw [evalEach, run]
  dsimp only
  rcases evalEach room text fault rest between with ⟨result, after⟩
  cases result <;> rfl

theorem evalEach_of_error (text : Text) (fault : Option Malformed) (d : Datum) (rest : List Datum)
    (s after : Scope) (failure : Failure) (run : d.eval room text s = (.error failure, after)) :
    evalEach room text fault (d :: rest) s = (.error failure, after) := by
  rw [evalEach, run]

/-- Data that are all evaluated: the first of them is, and so are the others in what it leaves. -/
theorem cons_of_evalEach (text : Text) (fault : Option Malformed) (d : Datum) (rest : List Datum)
    (s after : Scope) (results : List Number)
    (run : evalEach room text fault (d :: rest) s = (.ok results, after)) :
    ∃ value between values, d.eval room text s = (.ok value, between) ∧
      evalEach room text fault rest between = (.ok values, after) ∧ value :: values = results := by
  rcases first : d.eval room text s with ⟨result, between⟩
  cases result with
  | error failure =>
      rw [evalEach_of_error room text fault d rest s between failure first] at run
      simp at run
  | ok value =>
      rw [evalEach_of_ok room text fault d rest s between value first] at run
      obtain ⟨values, later, same⟩ := ok_of_thenMap run
      exact ⟨value, between, values, rfl, later, same⟩

/-- Data are evaluated alike as parts of different texts, as long as both or neither end with a
fault. -/
theorem endsAlike_evalEach (text other : Text) (fault otherFault : Option Malformed)
    (same : fault.isSome = otherFault.isSome) (data : List Datum) (s : Scope) :
    EndsAlike (evalEach room text fault data s) (evalEach room other otherFault data s) := by
  induction data generalizing s with
  | nil =>
      cases fault with
      | none =>
          have clear : otherFault = none := by
            cases otherFault with
            | none => rfl
            | some cause => simp at same
          rw [clear]
          exact .value [] s
      | some cause =>
          obtain ⟨otherCause, found⟩ := Option.isSome_iff_exists.mp same.symm
          rw [found]
          exact .failure _ _ s (Failure.akin_malformed cause otherCause)
  | cons d rest ih =>
      have first := d.endsAlike_eval room text other s
      rcases run : d.eval room text s with ⟨result, between⟩
      rcases otherRun : d.eval room other s with ⟨otherResult, otherBetween⟩
      rw [run, otherRun] at first
      cases first with
      | value value _ =>
          rw [evalEach_of_ok room text fault d rest s between value run,
            evalEach_of_ok room other otherFault d rest s between value otherRun]
          exact endsAlike_thenMap _ _ _ (ih between)
      | failure failure otherFailure _ akin =>
          rw [evalEach_of_error room text fault d rest s between failure run,
            evalEach_of_error room other otherFault d rest s between otherFailure otherRun]
          exact .failure failure otherFailure between akin

/-- After data that are all evaluated the data behind them are evaluated in what is left. -/
theorem evalEach_append (text : Text) (fault : Option Malformed) (first second : List Datum)
    (s between : Scope) (results : List Number)
    (run : evalEach room text none first s = (.ok results, between)) :
    evalEach room text fault (first ++ second) s =
      thenMap (results ++ ·) (evalEach room text fault second between) := by
  induction first generalizing s results with
  | nil =>
      rw [evalEach, Prod.mk.injEq, Except.ok.injEq] at run
      obtain ⟨rfl, rfl⟩ := run
      exact (thenMap_id _).symm
  | cons d rest ih =>
      obtain ⟨value, next, values, firstRun, later, rfl⟩ :=
        cons_of_evalEach room text none d rest s between results run
      rw [List.cons_append, evalEach_of_ok room text fault d _ s next value firstRun,
        ih next values later]
      exact thenMap_thenMap _ _ _

/-- A failure among the first data is the end of it, whatever stands behind them. -/
theorem evalEach_append_of_error (text : Text) (fault : Option Malformed) (first second : List Datum)
    (s after : Scope) (failure : Failure)
    (run : evalEach room text none first s = (.error failure, after)) :
    evalEach room text fault (first ++ second) s = (.error failure, after) := by
  induction first generalizing s with
  | nil => simp [evalEach] at run
  | cons d rest ih =>
      rcases firstRun : d.eval room text s with ⟨result, next⟩
      cases result with
      | error early =>
          rw [evalEach_of_error room text none d rest s next early firstRun] at run
          rw [List.cons_append, evalEach_of_error room text fault d _ s next early firstRun, run]
      | ok value =>
          rw [evalEach_of_ok room text none d rest s next value firstRun] at run
          rw [List.cons_append, evalEach_of_ok room text fault d _ s next value firstRun,
            ih next (error_of_thenMap run)]
          rfl

theorem fault_of_evalEach (text : Text) (fault : Option Malformed) (data : List Datum)
    (s after : Scope) (results : List Number)
    (run : evalEach room text fault data s = (.ok results, after)) : fault = none := by
  induction data generalizing s results with
  | nil =>
      cases fault with
      | none => rfl
      | some cause => simp [evalEach] at run
  | cons d rest ih =>
      obtain ⟨_, between, values, -, later, -⟩ :=
        cons_of_evalEach room text fault d rest s after results run
      exact ih between values later

/-! ## What they define -/

/-- The definitions that the evaluation of data in order completes, up to the first failure. -/
def completedEach : List Datum → Scope → List (Symbol × Number)
  | [], _ => []
  | d :: rest, s =>
    match Expr.build room d with
    | .error _ => []
    | .ok e =>
      match e.eval s with
      | (.error _, _) => e.completed s
      | (.ok _, between) => e.completed s ++ completedEach rest between

theorem eval_of_built (text : Text) (d : Datum) (e : Expr) (s : Scope)
    (built : Expr.build room d = .ok e) : d.eval room text s = e.eval s := by
  rw [eval, built]

theorem scope_evalEach (text : Text) (fault : Option Malformed) (data : List Datum) (s : Scope) :
    (evalEach room text fault data s).2 = s.defineAll (completedEach room data s) := by
  induction data generalizing s with
  | nil => cases fault <;> exact s.defineAll_nil.symm
  | cons d rest ih =>
      cases built : Expr.build room d with
      | error failure =>
          have refused : d.eval room text s = (.error (failure.inText text), s) := by
            rw [eval, built]
          rw [evalEach_of_error room text fault d rest s s _ refused]
          simp only [completedEach, built, Scope.defineAll_nil]
      | ok e =>
          have first := e.scope_eval s
          have same := d.eval_of_built room text e s built
          rcases run : e.eval s with ⟨result, between⟩
          rw [run] at first same
          cases result with
          | error failure =>
              rw [evalEach_of_error room text fault d rest s between failure same]
              simp only [completedEach, built, run]
              exact first
          | ok value =>
              have later := ih between
              rw [evalEach_of_ok room text fault d rest s between value same]
              simp only [completedEach, built, run, thenMap, Scope.defineAll_append]
              rw [later, ← first]

theorem completedEach_append (text : Text) (first second : List Datum) (s between : Scope)
    (results : List Number) (run : evalEach room text none first s = (.ok results, between)) :
    completedEach room (first ++ second) s =
      completedEach room first s ++ completedEach room second between := by
  induction first generalizing s results with
  | nil =>
      rw [evalEach, Prod.mk.injEq] at run
      rw [run.2]
      rfl
  | cons d rest ih =>
      obtain ⟨value, next, values, firstRun, later, -⟩ :=
        cons_of_evalEach room text none d rest s between results run
      cases built : Expr.build room d with
      | error failure => simp [eval, built] at firstRun
      | ok e =>
          rw [d.eval_of_built room text e s built] at firstRun
          simp only [List.cons_append, completedEach, built, firstRun]
          rw [ih next values later, List.append_assoc]

end Datum

/-! ## Texts -/

/-- The definitions that the evaluation of all forms of a text completes. -/
def Text.completed (text : Text) (s : Scope) : List (Symbol × Number) :=
  Datum.completedEach room (Scan.ofText text).forms.data s

section Seam

variable (first second : Text) (s between : Scope) (results : List Number)
  (run : interpretAll room first s = (.ok results, between))

include run

/-- The forms of a text that is evaluated to its end are evaluated in the same way as the first forms
of any longer text. -/
theorem evalEach_of_interpretAll (whole : Text) :
    Datum.evalEach room whole none (Scan.ofText first).forms.data s = (.ok results, between) := by
  have clear : (Scan.ofText first).forms.fault = none := Datum.fault_of_evalEach _ _ _ _ _ _ _ run
  have alike := Datum.endsAlike_evalEach room first whole none none rfl
    (Scan.ofText first).forms.data s
  rw [interpretAll, clear] at run
  exact alike.eq_of_ok results between run

theorem interpretAll_append_line :
    EndsAlike (thenMap (results ++ ·) (interpretAll room second between))
      (interpretAll room (first ++ "\n" ++ second) s) := by
  have clear : (Scan.ofText first).forms.fault = none := Datum.fault_of_evalEach _ _ _ _ _ _ _ run
  obtain ⟨data, fault⟩ := Scan.forms_append_line first second clear
  have before := evalEach_of_interpretAll room first s between results run (first ++ "\n" ++ second)
  rw [interpretAll, interpretAll, data, Datum.evalEach_append _ _ _ _ _ s between results before]
  exact endsAlike_thenMap _ _ _ (Datum.endsAlike_evalEach _ _ _ _ _ fault.symm _ between)

theorem completed_append_line :
    (first ++ "\n" ++ second).completed room s =
      first.completed room s ++ second.completed room between := by
  have clear : (Scan.ofText first).forms.fault = none := Datum.fault_of_evalEach _ _ _ _ _ _ _ run
  have before := evalEach_of_interpretAll room first s between results run first
  rw [Text.completed, (Scan.forms_append_line first second clear).1]
  exact Datum.completedEach_append room first _ _ s between results before

end Seam

theorem scope_interpretAll (text : Text) (s : Scope) :
    (interpretAll room text s).2 = s.defineAll (text.completed room s) :=
  Datum.scope_evalEach room text _ _ s

theorem interpret_of_read (text : Text) (d : Datum) (s : Scope) (read : Datum.read text = .ok d) :
    interpret room text s = d.eval room text s := by
  rw [interpret, read]

theorem interpretAll_of_read (text : Text) (d : Datum) (s : Scope)
    (read : Datum.read text = .ok d) :
    interpretAll room text s = thenMap (fun value => [value]) (interpret room text s) := by
  obtain ⟨data, fault⟩ := Scan.forms_of_read text d read
  rw [interpretAll, data, fault, interpret_of_read room text d s read]
  rcases run : d.eval room text s with ⟨result, after⟩
  cases result with
  | error failure => exact Datum.evalEach_of_error room text none d [] s after failure run
  | ok value => exact Datum.evalEach_of_ok room text none d [] s after value run

/-- A failure in the first of two texts is the end of it, if that text is not malformed. -/
theorem interpretAll_append_line_of_error (first second : Text) (s after : Scope)
    (failure : Failure) (clear : (Scan.ofText first).forms.fault = none)
    (run : interpretAll room first s = (.error failure, after)) :
    EndsAlike (.error failure, after) (interpretAll room (first ++ "\n" ++ second) s) := by
  obtain ⟨data, -⟩ := Scan.forms_append_line first second clear
  have alike := Datum.endsAlike_evalEach room first (first ++ "\n" ++ second) none none rfl
    (Scan.ofText first).forms.data s
  rw [interpretAll, clear] at run
  rw [run] at alike
  obtain ⟨other, akin, before⟩ := alike.exists_of_error failure after rfl
  rw [interpretAll, data, Datum.evalEach_append_of_error _ _ _ _ _ s after other before]
  exact .failure failure other after akin

end ParenCalc
