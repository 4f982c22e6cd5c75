import ParenCalc.Proofs.Eval.Agreement
import ParenCalc.Proofs.Eval.Definitions
/-!
# Evaluation is local

What an expression comes to depends on its own names only, and it changes no others.  The names
that its definitions take are the only ones that may get another value; no name goes away, and the
names of the nearest frame keep their places.  Without definitions an evaluation leaves its scope as
it is.
-/
set_option autoImplicit false

namespace ParenCalc

namespace Scope

theorem lookup?_eq (s : Scope) (x : Symbol) :
    s.lookup? x = (s.frame.get? x).or (lookupIn? x s.outer) := by
  rw [lookup?, frames, lookupIn?]
  cases s.frame.get? x <;> rfl

end Scope

namespace Expr

/-- What an expression may make of a scope: the frames around it stay, the nearest frame is
extended, no name goes away, and a name that no definition takes means what it did. -/
structure Leaves (e : Expr) (s after : Scope) : Prop where
  outer : after.outer = s.outer
  frame : Frame.Extends (fun x => x ∈ e.targets) s.frame after.frame
  bound : ∀ x, (s.lookup? x).isSome = true → (after.lookup? x).isSome = true
  same : ∀ x, x ∉ e.targets → after.lookup? x = s.lookup? x

theorem leaves_eval (e : Expr) (s : Scope) : e.Leaves s (e.eval s).2 := by
  have outer := e.outer_eval s
  have frame := e.extends_targets s
  refine ⟨outer, frame, ?_, ?_⟩
  · intro x bound
    rw [Scope.lookup?_eq, Option.isSome_or, Bool.or_eq_true] at bound
    rw [Scope.lookup?_eq, outer, Option.isSome_or, Bool.or_eq_true]
    rcases bound with own | around
    · have listed := (OrderedMap.mem_keys_iff _ x).mpr (Option.isSome_iff_exists.mp own)
      have kept := (OrderedMap.mem_keys_iff _ x).mp (frame.keys.subset listed)
      exact .inl (Option.isSome_iff_exists.mpr kept)
    · exact .inr around
  · intro x other
    rw [Scope.lookup?_eq, Scope.lookup?_eq, outer, frame.same x other]

/-- Without definitions there is nothing to complete. -/
theorem scope_of_no_targets (e : Expr) (s : Scope) (pure : e.targets = []) : (e.eval s).2 = s := by
  have nothing : e.completed s = [] := by
    rw [List.eq_nil_iff_forall_not_mem]
    intro binding member
    have target := e.target_of_completed s binding member
    rw [pure] at target
    cases target
  rw [scope_eval, nothing, Scope.defineAll_nil]

end Expr

/-- Evaluation is local to the names in the expression.  In scopes that agree on these names, and
maybe on some more, it comes to the same value or the same failure, and afterwards they still agree.
In every scope, come to a value or not, it leaves what the names that it does not define mean.
Without definitions it changes nothing, and is the same every time. -/
theorem evaluation_is_local (e : Expr) :
    (∀ names : Symbol → Prop, (∀ x ∈ e.names, names x) →
      ∀ s t : Scope, Scope.AgreeOn names s t → SideBySide names (e.eval s) (e.eval t)) ∧
    (∀ s : Scope, e.Leaves s (e.eval s).2) ∧
    (e.targets = [] → ∀ s : Scope, (e.eval s).2 = s ∧ e.eval (e.eval s).2 = e.eval s) := by
  refine ⟨?_, e.leaves_eval, ?_⟩
  · intro names occurring s t agree
    exact e.sideBySide_eval names s t occurring agree
  · intro pure s
    have unchanged := e.scope_of_no_targets s pure
    exact ⟨unchanged, congrArg e.eval unchanged⟩

/-- A failure behind a definition that is completed, in one frame and in a chain of frames. -/
theorem failure_behind_definition_is_local :
    let x : Symbol := ⟨"x", by decide⟩
    let y : Symbol := ⟨"y", by decide⟩
    let z : Symbol := ⟨"z", by decide⟩
    let e : Expr := .application Arithmetic.div.symbol
      [.definition x (.reference y), .definition y (.literal (.int 0))]
    let s : Scope := .root (.ofList [(y, .int 7), (z, .int 1), (x, .int 5)])
    let t : Scope := ⟨.ofList [(z, .int 2)], [.ofList [(x, .int 5)], .ofList [(y, .int 7)]]⟩
    Scope.AgreeOn (fun w => w ∈ e.names) s t ∧
      SideBySide (fun w => w ∈ e.names) (e.eval s) (e.eval t) ∧
      (e.eval t).1.toOption = none ∧ (e.eval t).2.frame.keys = [z, x, y] := by
  intro x y z e s t
  have agree : Scope.AgreeOn (fun w => w ∈ e.names) s t := by
    intro w member
    have occurring : w = x ∨ w = y := by
      simpa [e, Expr.names, Expr.namesOfAll] using member
    rcases occurring with rfl | rfl
    · decide +kernel
    · decide +kernel
  refine ⟨agree, ?_, by decide +kernel, by decide +kernel⟩
  exact (evaluation_is_local e).1 _ (fun _ member => member) s t agree

end ParenCalc
