import ParenCalc.Interpreter
import ParenCalc.Proofs.Expr.WellFormed
import ParenCalc.Proofs.Number.Rounding
/-!
# Evaluation is safe

A text that is evaluated in a scope of admissible values comes to an admissible value, or to a
failure of one of three kinds: malformed, undefined or arithmetic.  Either way the scope goes on
holding admissible values only, and a name that it newly binds is one that a definition may take.

The cases in which an operator would have no answer do not come up: the builder has counted the
operands, a division is by a number other than zero by its very type, and the end of every fold is
held to the admissible numbers, whatever has passed on the way.
-/
set_option autoImplicit false

namespace ParenCalc

/-! ## Answers -/

def Failure.IsAnswer (failure : Failure) : Prop :=
  ∃ fault, failure = .fault fault ∧ fault.report.kind ∈ [Kind.malformed, .undefined, .arithmetic]

/-- A good value, or a failure that a text may be answered with. -/
def Answers {α : Type} (good : α → Prop) : Except Failure α → Prop
  | .ok value => good value
  | .error failure => failure.IsAnswer

theorem isAnswer_malformed (cause : Malformed) : (Failure.fault (.malformed cause)).IsAnswer :=
  ⟨_, rfl, by simp [Fault.report, Report.malformed]⟩

theorem isAnswer_undefined (name : Text) : (Failure.fault (.undefined name)).IsAnswer :=
  ⟨_, rfl, by simp [Fault.report, Report.undefined]⟩

theorem isAnswer_arithmetic (cause : ArithmeticFault) :
    (Failure.fault (.arithmetic cause)).IsAnswer := by
  refine ⟨_, rfl, ?_⟩
  cases cause <;> simp [Fault.report, ArithmeticFault.report, Report.arithmetic]

theorem isAnswer_inText (text : Text) (failure : Failure) (refusal : failure.IsRefusal) :
    (failure.inText text).IsAnswer := by
  rcases refusal with rfl | ⟨cause, rfl⟩
  · exact isAnswer_malformed _
  · exact isAnswer_malformed cause

/-! ## Operators -/

namespace Arithmetic

theorem settle_admissible (op : Arithmetic) (operands : List Number) (result n : Number)
    (run : op.settle operands result = .ok n) : n.isAdmissible = true := by
  unfold settle at run
  split at run
  · rename_i admissible
    rwa [← Except.ok.inj run]
  · cases result <;> simp at run

theorem fold_admissible (op : Arithmetic) (operands rest : List Number) (acc n : Number)
    (run : op.fold operands acc rest = .ok n) : n.isAdmissible = true := by
  -- nothing is known of the values on the way: only the end of the fold is settled
  induction rest generalizing acc with
  | nil => exact settle_admissible op operands acc n run
  | cons b rest ih =>
      unfold fold at run
      split at run
      · simp at run
      · dsimp only at run
        split at run
        · rename_i next combined
          exact ih next run
        · simp at run

theorem answers_apply (op : Arithmetic) (a : Number) (rest : List Number) :
    Answers (fun value => value.isAdmissible = true) (op.apply (a :: rest)) := by
  show Answers _ ((op.fold (a :: rest) a rest).mapError _)
  cases run : op.fold (a :: rest) a rest with
  | error cause => exact isAnswer_arithmetic cause
  | ok n => exact fold_admissible op (a :: rest) rest a n run

end Arithmetic

theorem Comparison.answers_apply (op : Comparison) (a b : Number) :
    Answers (fun value => value.isAdmissible = true) (op.apply [a, b]) := by
  unfold apply
  show Number.isAdmissible (.int _) = true
  split <;> decide

/-- An operator answers whatever operands of the right number it is given. -/
theorem Operator.answers_apply (op : Operator) (operands : List Number)
    (enough : op.accepts operands.length = true) :
    Answers (fun value => value.isAdmissible = true) (op.apply operands) := by
  cases op with
  | arithmetic op =>
      match operands, enough with
      | a :: rest, _ => exact op.answers_apply a rest
  | comparison op =>
      match operands, enough with
      | [a, b], _ => exact op.answers_apply a b

/-! ## Scopes -/

def Frame.Admissible (f : Frame) : Prop :=
  ∀ x value, f.get? x = some value → value.isAdmissible = true

def Scope.Admissible (s : Scope) : Prop := ∀ f ∈ s.frames, Frame.Admissible f

/-- What a text may make of a frame: its values are admissible, and the names it did not bind before
are names that a definition may take. -/
structure Frame.Grows (before after : Frame) : Prop where
  admissible : Frame.Admissible after
  named : ∀ x ∈ after.keys, x ∈ before.keys ∨ x.Bindable

/-- A run from a scope that ends in an answer and has done to the scope what a text may do. -/
structure Evaluates {α : Type} (good : α → Prop) (s : Scope) (run : Except Failure α × Scope) :
    Prop where
  answers : Answers good run.1
  outer : run.2.outer = s.outer
  grows : s.frame.Grows run.2.frame

namespace Frame

theorem admissible_empty : Frame.Admissible .empty := by
  intro x value bound
  rw [OrderedMap.get?_empty] at bound
  simp at bound

theorem grows_refl (f : Frame) (admissible : Frame.Admissible f) : f.Grows f :=
  ⟨admissible, fun _ bound => .inl bound⟩

theorem grows_trans (before between after : Frame) (first : before.Grows between)
    (second : between.Grows after) : before.Grows after := by
  refine ⟨second.admissible, ?_⟩
  intro x bound
  rcases second.named x bound with earlier | bindable
  · exact first.named x earlier
  · exact .inr bindable

theorem grows_insert (f : Frame) (x : Symbol) (value : Number) (admissible : Frame.Admissible f)
    (bindable : x.Bindable) (good : value.isAdmissible = true) : f.Grows (f.insert x value) := by
  refine ⟨?_, ?_⟩
  · intro y found bound
    rw [OrderedMap.get?_insert] at bound
    split at bound
    · rwa [← Option.some.inj bound]
    · exact admissible y found bound
  · intro y bound
    rw [OrderedMap.keys_insert] at bound
    split at bound
    · exact .inl bound
    · rcases List.mem_append.mp bound with earlier | new
      · exact .inl earlier
      · rw [List.mem_singleton.mp new]
        exact .inr bindable

end Frame

namespace Scope

theorem lookupIn?_admissible (x : Symbol) (value : Number) (frames : List Frame)
    (admissible : ∀ f ∈ frames, Frame.Admissible f) (found : lookupIn? x frames = some value) :
    value.isAdmissible = true := by
  induction frames with
  | nil => simp [lookupIn?] at found
  | cons f rest ih =>
      unfold lookupIn? at found
      split at found
      · rename_i bound
        rw [Option.some.inj found] at bound
        exact admissible f (by simp) x value bound
      · exact ih (fun g member => admissible g (by simp [member])) found

end Scope

namespace Evaluates

variable {α β : Type} {good : α → Prop} {other : β → Prop} {s between : Scope}

theorem still (result : Except Failure α) (admissible : s.Admissible)
    (answers : Answers good result) : Evaluates good s (result, s) :=
  ⟨answers, rfl, s.frame.grows_refl (admissible s.frame (by simp [Scope.frames]))⟩

theorem admissible {run : Except Failure α × Scope} (first : Evaluates good s run)
    (before : s.Admissible) : run.2.Admissible := by
  intro f member
  unfold Scope.frames at member
  rw [first.outer] at member
  rcases List.mem_cons.mp member with rfl | further
  · exact first.grows.admissible
  · exact before f (List.mem_cons_of_mem _ further)

theorem trans {result : Except Failure α} {run : Except Failure β × Scope}
    (first : Evaluates good s (result, between)) (second : Evaluates other between run) :
    Evaluates other s run :=
  ⟨second.answers, second.outer.trans first.outer,
    Frame.grows_trans _ _ _ first.grows second.grows⟩

/-- A run goes on to another result in the scope it has come to. -/
theorem ending {result : Except Failure α} (first : Evaluates good s (result, between))
    (last : Except Failure β) (answers : Answers other last) : Evaluates other s (last, between) :=
  ⟨answers, first.outer, first.grows⟩

/-- A value that a run has come to is bound to a name that a definition may take. -/
theorem define {x : Symbol} {value : Number}
    (first : Evaluates (fun n => n.isAdmissible = true) s (.ok value, between))
    (bindable : x.Bindable) :
    Evaluates (fun n => n.isAdmissible = true) s (.ok value, between.define x value) := by
  have bound : between.frame.Grows (between.define x value).frame :=
    between.frame.grows_insert x value first.grows.admissible bindable first.answers
  exact ⟨first.answers, first.outer, Frame.grows_trans _ _ _ first.grows bound⟩

/-- A value and then a list of values, in the scope that the value has left. -/
theorem cons {head : Except Failure Number × Scope}
    {tail : Scope → Except Failure (List Number) × Scope} {goodHead : Number → Prop}
    {goodTail goodAll : List Number → Prop} (admissible : s.Admissible)
    (later : ∀ between : Scope, between.Admissible → Evaluates goodTail between (tail between))
    (prepend : ∀ value values, goodHead value → goodTail values → goodAll (value :: values)) :
    Evaluates goodHead s head →
      Evaluates goodAll s
        (match head with
        | (.error failure, s) => (.error failure, s)
        | (.ok value, s) =>
          match tail s with
          | (.ok values, s) => (.ok (value :: values), s)
          | (.error failure, s) => (.error failure, s)) := by
  intro first
  rcases head with ⟨result, between⟩
  cases result with
  | error failure => exact first.ending _ first.answers
  | ok value =>
      have both := first.trans (later between (first.admissible admissible))
      dsimp only
      rcases run : tail between with ⟨tailResult, after⟩
      rw [run] at both
      cases tailResult with
      | error failure => exact both.ending _ both.answers
      | ok values => exact both.ending _ (prepend value values first.answers both.answers)

end Evaluates

/-! ## Expressions -/

namespace Expr

mutual

theorem evaluates_eval :
    ∀ (e : Expr) (s : Scope), e.WellFormed → s.Admissible →
      Evaluates (fun n => n.isAdmissible = true) s (e.eval s)
  | .literal n, s, wellFormed, admissible => .still (.ok n) admissible wellFormed
  | .reference x, s, _, admissible => by
      unfold eval
      split
      · rename_i value found
        apply Evaluates.still _ admissible
        exact Scope.lookupIn?_admissible x value s.frames admissible found
      · exact .still _ admissible (isAnswer_undefined x.name)
  | .definition x e, s, ⟨bindable, wellFormed⟩, admissible => by
      have inner := evaluates_eval e s wellFormed admissible
      unfold eval
      rcases run : e.eval s with ⟨result, after⟩
      rw [run] at inner
      cases result with
      | error failure => exact inner
      | ok value => exact inner.define bindable
  | .conditional test yes no, s, ⟨testFormed, yesFormed, noFormed⟩, admissible => by
      have tested := evaluates_eval test s testFormed admissible
      unfold eval
      rcases run : test.eval s with ⟨result, after⟩
      rw [run] at tested
      cases result with
      | error failure => exact tested
      | ok value =>
          have still : after.Admissible := tested.admissible admissible
          dsimp only
          split
          · exact tested.trans (evaluates_eval yes after yesFormed still)
          · exact tested.trans (evaluates_eval no after noFormed still)
  | .application x arguments, s, ⟨⟨op, found, enough⟩, wellFormed⟩, admissible => by
      -- the operator exists and has as many operands as it takes, since the application was built
      have inner := evaluates_evalAll arguments s wellFormed admissible
      unfold eval
      rw [found]
      rcases run : evalAll arguments s with ⟨result, after⟩
      rw [run] at inner
      cases result with
      | error failure => exact inner.ending _ inner.answers
      | ok operands =>
          have count : operands.length = arguments.length := inner.answers
          apply inner.ending
          apply op.answers_apply
          rw [count, enough]

/-- Operands that are evaluated are as many as their expressions. -/
theorem evaluates_evalAll :
    ∀ (arguments : List Expr) (s : Scope), AllWellFormed arguments → s.Admissible →
      Evaluates (fun operands => operands.length = arguments.length) s (evalAll arguments s)
  | [], s, _, admissible => .still (.ok []) admissible rfl
  | e :: rest, s, ⟨wellFormed, restFormed⟩, admissible => by
      have first := evaluates_eval e s wellFormed admissible
      have later := fun between still => evaluates_evalAll rest between restFormed still
      unfold evalAll
      refine Evaluates.cons admissible later ?_ first
      intro value values _ count
      rw [List.length_cons, count, List.length_cons]

end

end Expr

/-! ## Texts -/

theorem Datum.evaluates_eval (room : Nat) (text : Text) (d : Datum) (s : Scope)
    (readable : d.Readable) (admissible : s.Admissible) :
    Evaluates (fun n => n.isAdmissible = true) s (d.eval room text s) := by
  unfold eval
  cases built : Expr.build room d with
  | error failure =>
      have refusal := Expr.isRefusal_of_build room d failure built
      exact .still _ admissible (isAnswer_inText text failure refusal)
  | ok e => exact e.evaluates_eval s (Expr.wellFormed_of_build room d e readable built) admissible

theorem evaluates_interpret (room : Nat) (text : Text) (s : Scope) (admissible : s.Admissible) :
    Evaluates (fun n => n.isAdmissible = true) s (interpret room text s) := by
  unfold interpret
  cases run : Datum.read text with
  | error cause => exact .still _ admissible (isAnswer_malformed cause)
  | ok d => exact d.evaluates_eval room text s (Datum.readable_of_read text d run) admissible

theorem Datum.evaluates_evalEach (room : Nat) (text : Text) (fault : Option Malformed)
    (data : List Datum) (s : Scope) (readable : AllReadable data) (admissible : s.Admissible) :
    Evaluates (fun values => ∀ n ∈ values, n.isAdmissible = true) s
      (evalEach room text fault data s) := by
  induction data generalizing s with
  | nil =>
      unfold evalEach
      cases fault with
      | none => exact .still _ admissible (by simp [Answers])
      | some cause => exact .still _ admissible (isAnswer_malformed cause)
  | cons d rest ih =>
      have first := d.evaluates_eval room text s readable.1 admissible
      have later := fun between still => ih between readable.2 still
      unfold evalEach
      refine Evaluates.cons admissible later ?_ first
      intro value values good goodRest n member
      rcases List.mem_cons.mp member with rfl | among
      · exact good
      · exact goodRest n among

/-- The data of a text are readable up to the first fault. -/
theorem Scan.allReadable_forms (s : Scan) : Datum.AllReadable s.forms.data := by
  obtain ⟨own, left, rendered, -, -⟩ := s.forms_sound
  exact readable_of_rendersAll own s.forms.data rendered

theorem evaluates_interpretAll (room : Nat) (text : Text) (s : Scope)
    (admissible : s.Admissible) :
    Evaluates (fun values => ∀ n ∈ values, n.isAdmissible = true) s (interpretAll room text s) :=
  Datum.evaluates_evalEach room text _ _ s (Scan.allReadable_forms _) admissible

/-! ## Interpreters -/

namespace Interpreter

/-- An interpreter that some texts have led to from a frame. -/
inductive Reachable (first : Frame) : Interpreter → Prop
  | start : Reachable first ⟨first⟩
  | eval (text : Text) (i : Interpreter) (before : Reachable first i) :
      Reachable first (i.eval text).2
  | evalAll (text : Text) (i : Interpreter) (before : Reachable first i) :
      Reachable first (i.evalAll text).2

theorem admissible_root (f : Frame) (admissible : Frame.Admissible f) :
    (Scope.root f).Admissible := by
  simpa [Scope.Admissible, Scope.root, Scope.frames] using admissible

theorem answers_eval (text : Text) (i : Interpreter) (admissible : Frame.Admissible i.frame) :
    Answers (fun n => n.isAdmissible = true) (i.eval text).1 ∧
      i.frame.Grows (i.eval text).2.frame := by
  have run := evaluates_interpret formRoom text (.root i.frame) (admissible_root i.frame admissible)
  exact ⟨run.answers, run.grows⟩

theorem answers_evalAll (text : Text) (i : Interpreter) (admissible : Frame.Admissible i.frame) :
    Answers (fun values => ∀ n ∈ values, n.isAdmissible = true) (i.evalAll text).1 ∧
      i.frame.Grows (i.evalAll text).2.frame := by
  have run := evaluates_interpretAll batchRoom text (.root i.frame)
    (admissible_root i.frame admissible)
  exact ⟨run.answers, run.grows⟩

theorem grows_of_reachable (first : Frame) (i : Interpreter) (admissible : Frame.Admissible first)
    (reachable : Reachable first i) : first.Grows i.frame := by
  induction reachable with
  | start => exact first.grows_refl admissible
  | eval text i before ih =>
      exact Frame.grows_trans _ _ _ ih (answers_eval text i ih.admissible).2
  | evalAll text i before ih =>
      exact Frame.grows_trans _ _ _ ih (answers_evalAll text i ih.admissible).2

end Interpreter

end ParenCalc
