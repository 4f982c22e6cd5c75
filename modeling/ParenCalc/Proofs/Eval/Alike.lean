import ParenCalc.Interpreter
/-!
# Runs that end alike

What a fault of a text says about its place, and how the text is quoted, depends on the whole of the
text.  Texts that differ only around a form agree on everything else: the state that is left, the
result, the kind of a failure, and the failure itself unless the text is malformed.
-/
set_option autoImplicit false

namespace ParenCalc

/-! ## Failures of one kind -/

namespace Failure

/-- The kind that a failure is reported as; a misuse is not reported. -/
def kind? : Failure → Option Kind
  | .fault cause => some cause.report.kind
  | .misuse _ => none

/-- Failures of one kind, and the same failure unless they are ways of being malformed: where a fault
stands and how a text begins depends on the whole of the text. -/
def Akin (failure other : Failure) : Prop :=
  failure.kind? = other.kind? ∧ (failure.kind? ≠ some .malformed → failure = other)

theorem akin_refl (failure : Failure) : failure.Akin failure := ⟨rfl, fun _ => rfl⟩

theorem akin_trans (first second third : Failure) (left : first.Akin second)
    (right : second.Akin third) : first.Akin third := by
  refine ⟨left.1.trans right.1, ?_⟩
  intro otherKind
  exact (left.2 otherKind).trans (right.2 (left.1 ▸ otherKind))

theorem akin_malformed (cause other : Malformed) :
    Akin (.fault (.malformed cause)) (.fault (.malformed other)) :=
  ⟨rfl, fun otherKind => absurd (congrArg some rfl) otherKind⟩

theorem akin_inText (text other : Text) (failure : Failure) :
    (failure.inText text).Akin (failure.inText other) := by
  unfold inText
  split
  · exact akin_malformed _ _
  · exact akin_refl _

end Failure

/-! ## Runs that end alike -/

/-- Runs that leave the same state and come to the same result or to failures of one kind. -/
inductive EndsAlike {α σ : Type} : Except Failure α × σ → Except Failure α × σ → Prop
  | value (a : α) (s : σ) : EndsAlike (.ok a, s) (.ok a, s)
  | failure (failure other : Failure) (s : σ) (akin : failure.Akin other) :
      EndsAlike (.error failure, s) (.error other, s)

namespace EndsAlike

variable {α β σ : Type}

theorem refl (run : Except Failure α × σ) : EndsAlike run run := by
  obtain ⟨result, s⟩ := run
  cases result with
  | ok a => exact .value a s
  | error failure => exact .failure failure failure s failure.akin_refl

theorem trans {first second third : Except Failure α × σ} (left : EndsAlike first second)
    (right : EndsAlike second third) : EndsAlike first third := by
  cases left with
  | value a s => exact right
  | failure failure other s akin =>
      cases right with
      | failure _ last _ akinRight =>
          exact .failure failure last s (failure.akin_trans other last akin akinRight)

theorem eq_of_ok {run other : Except Failure α × σ} (alike : EndsAlike run other) (a : α) (s : σ)
    (value : run = (.ok a, s)) : other = (.ok a, s) := by
  cases alike with
  | value _ _ => exact value
  | failure failure _ _ _ => simp at value

theorem exists_of_error {run other : Except Failure α × σ} (alike : EndsAlike run other)
    (failure : Failure) (s : σ) (failed : run = (.error failure, s)) :
    ∃ last, failure.Akin last ∧ other = (.error last, s) := by
  cases alike with
  | value _ _ => simp at failed
  | failure first last after akin =>
      rw [Prod.mk.injEq, Except.error.injEq] at failed
      obtain ⟨rfl, rfl⟩ := failed
      exact ⟨last, akin, rfl⟩

/-- Runs end alike if they do so for those who see one side of their states that tells them apart. -/
theorem of_map {τ : Type} (f : σ → τ) (injective : Function.Injective f)
    (run other : Except Failure α × σ) (alike : EndsAlike (run.map id f) (other.map id f)) :
    EndsAlike run other := by
  obtain ⟨result, s⟩ := run
  obtain ⟨otherResult, t⟩ := other
  cases result with
  | ok a =>
      have same := alike.eq_of_ok a (f s) rfl
      rw [Prod.map_apply, Prod.mk.injEq] at same
      obtain ⟨rfl, sameState⟩ := same
      rw [injective sameState]
      exact .value a s
  | error failure =>
      obtain ⟨last, akin, same⟩ := alike.exists_of_error failure (f s) rfl
      rw [Prod.map_apply, Prod.mk.injEq] at same
      obtain ⟨rfl, sameState⟩ := same
      rw [injective sameState]
      exact .failure failure last s akin

end EndsAlike

/-- A run whose result is worked on, if there is one. -/
def thenMap {α β σ : Type} (f : α → β) (run : Except Failure α × σ) : Except Failure β × σ :=
  (run.1.map f, run.2)

@[simp]
theorem thenMap_id {α σ : Type} (run : Except Failure α × σ) : thenMap (fun a => a) run = run := by
  obtain ⟨result, s⟩ := run
  cases result <;> rfl

theorem thenMap_thenMap {α β γ σ : Type} (f : α → β) (g : β → γ) (run : Except Failure α × σ) :
    thenMap g (thenMap f run) = thenMap (fun a => g (f a)) run := by
  obtain ⟨result, s⟩ := run
  cases result <;> rfl

theorem ok_of_thenMap {α β σ : Type} {f : α → β} {run : Except Failure α × σ} {b : β} {after : σ}
    (mapped : thenMap f run = (.ok b, after)) : ∃ a, run = (.ok a, after) ∧ f a = b := by
  obtain ⟨result, s⟩ := run
  cases result with
  | error failure => simp [thenMap, Except.map] at mapped
  | ok a =>
      simp only [thenMap, Except.map, Prod.mk.injEq, Except.ok.injEq] at mapped
      exact ⟨a, by rw [mapped.2], mapped.1⟩

theorem error_of_thenMap {α β σ : Type} {f : α → β} {run : Except Failure α × σ} {failure : Failure}
    {after : σ} (mapped : thenMap f run = (.error failure, after)) :
    run = (.error failure, after) := by
  obtain ⟨result, s⟩ := run
  cases result with
  | ok a => simp [thenMap, Except.map] at mapped
  | error early =>
      simp only [thenMap, Except.map, Prod.mk.injEq, Except.error.injEq] at mapped
      rw [mapped.1, mapped.2]

theorem endsAlike_thenMap {α β σ : Type} (f : α → β) (run other : Except Failure α × σ)
    (alike : EndsAlike run other) : EndsAlike (thenMap f run) (thenMap f other) := by
  cases alike with
  | value a s => exact .value (f a) s
  | failure failure other s akin => exact .failure failure other s akin

end ParenCalc
