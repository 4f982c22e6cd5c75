import ParenCalc.Proofs.Eval.Completions
/-!
# What evaluation sees of a scope

Of a scope an evaluation sees no more than what its names mean.  In two scopes that agree on the names
of an expression, the expression comes to the same value or the same failure, and they go on agreeing
on these names.  How the bindings are laid out over frames makes no difference then: a chain of
frames does what one frame does that binds each name to what it means in the chain.
-/
set_option autoImplicit false

namespace ParenCalc

/-! ## Names -/

namespace Expr

mutual

/-- The variables that occur in an expression, those that are defined included. -/
def names : Expr → List Symbol
  | .literal _ => []
  | .reference x => [x]
  | .definition x e => x :: e.names
  | .conditional test yes no => test.names ++ (yes.names ++ no.names)
  | .application _ arguments => namesOfAll arguments
  | .alien _ => []

def namesOfAll : List Expr → List Symbol
  | [] => []
  | e :: rest => e.names ++ namesOfAll rest

end

end Expr

namespace Scope

/-- Two scopes in which some names mean the same. -/
def AgreeOn (names : Symbol → Prop) (s t : Scope) : Prop :=
  ∀ x, names x → s.lookup? x = t.lookup? x

theorem agreeOn_define (names : Symbol → Prop) (s t : Scope) (x : Symbol) (value : Number)
    (agree : AgreeOn names s t) : AgreeOn names (s.define x value) (t.define x value) := by
  intro y named
  rw [lookup?_define, lookup?_define, agree y named]

end Scope

/-! ## Two runs side by side -/

/-- Two runs that come to the same result, in scopes that agree on some names. -/
structure SideBySide {α : Type} (names : Symbol → Prop) (run other : Except Failure α × Scope) :
    Prop where
  result : run.1 = other.1
  agree : Scope.AgreeOn names run.2 other.2

namespace SideBySide

variable {α β : Type} {names : Symbol → Prop} {result : Except Failure α} {s t : Scope}

/-- Runs side by side go on side by side, whatever comes next in the scopes that they have left. -/
theorem next {run other : Except Failure α × Scope} (first : SideBySide names run other)
    (rest : Except Failure α × Scope → Except Failure β × Scope)
    (same : ∀ result s t, Scope.AgreeOn names s t →
      SideBySide names (rest (result, s)) (rest (result, t))) :
    SideBySide names (rest run) (rest other) := by
  obtain ⟨result, s⟩ := run
  obtain ⟨otherResult, t⟩ := other
  obtain ⟨sameResult, agree⟩ := first
  dsimp only at sameResult
  subst sameResult
  exact same result s t agree

end SideBySide

namespace Expr

mutual

theorem sideBySide_eval (names : Symbol → Prop) :
    ∀ (e : Expr) (s t : Scope), (∀ x ∈ e.names, names x) → Scope.AgreeOn names s t →
      SideBySide names (e.eval s) (e.eval t)
  | .literal n, s, t, _, agree => by
      simp only [eval]
      exact ⟨rfl, agree⟩
  | .reference x, s, t, occurring, agree => by
      have same := agree x (occurring x (by simp [Expr.names]))
      simp only [eval, same]
      cases t.lookup? x <;> exact ⟨rfl, agree⟩
  | .definition x e, s, t, occurring, agree => by
      have inner := sideBySide_eval names e s t
        (fun y member => occurring y (by simp [Expr.names, member])) agree
      simp only [eval]
      apply inner.next fun run =>
        match run with
        | (.ok value, s) => (.ok value, s.define x value)
        | (.error failure, s) => (.error failure, s)
      intro result s t agree
      cases result with
      | error failure => exact ⟨rfl, agree⟩
      | ok value => exact ⟨rfl, Scope.agreeOn_define names s t x value agree⟩
  | .conditional test yes no, s, t, occurring, agree => by
      have tested := sideBySide_eval names test s t
        (fun y member => occurring y (by simp [Expr.names, member])) agree
      simp only [eval]
      apply tested.next fun run =>
        match run with
        | (.ok value, s) => if value.isTruthy then yes.eval s else no.eval s
        | (.error failure, s) => (.error failure, s)
      intro result s t agree
      cases result with
      | error failure => exact ⟨rfl, agree⟩
      | ok value =>
          dsimp only
          split
          · exact sideBySide_eval names yes s t
              (fun y member => occurring y (by simp [Expr.names, member])) agree
          · exact sideBySide_eval names no s t
              (fun y member => occurring y (by simp [Expr.names, member])) agree
  | .application x arguments, s, t, occurring, agree => by
      have inner := sideBySide_evalAll names arguments s t
        (fun y member => occurring y (by simpa [Expr.names] using member)) agree
      simp only [eval]
      cases Operator.ofSymbol? x with
      | none => exact ⟨rfl, agree⟩
      | some op =>
          apply inner.next fun run =>
            match run with
            | (.ok values, s) => (op.apply values, s)
            | (.error failure, s) => (.error failure, s)
          intro result s t agree
          cases result <;> exact ⟨rfl, agree⟩
  | .alien d, s, t, _, agree => by
      simp only [eval]
      exact ⟨rfl, agree⟩

theorem sideBySide_evalAll (names : Symbol → Prop) :
    ∀ (arguments : List Expr) (s t : Scope), (∀ x ∈ namesOfAll arguments, names x) →
      Scope.AgreeOn names s t → SideBySide names (evalAll arguments s) (evalAll arguments t)
  | [], s, t, _, agree => by
      simp only [evalAll]
      exact ⟨rfl, agree⟩
  | e :: rest, s, t, occurring, agree => by
      have first := sideBySide_eval names e s t
        (fun y member => occurring y (by simp [namesOfAll, member])) agree
      simp only [evalAll]
      apply first.next fun run =>
        match run with
        | (.error failure, s) => (.error failure, s)
        | (.ok value, s) =>
          match evalAll rest s with
          | (.ok values, s) => (.ok (value :: values), s)
          | (.error failure, s) => (.error failure, s)
      intro result s t agree
      cases result with
      | error failure => exact ⟨rfl, agree⟩
      | ok value =>
          have later := sideBySide_evalAll names rest s t
            (fun y member => occurring y (by simp [namesOfAll, member])) agree
          apply later.next fun run =>
            match run with
            | (.ok values, s) => (.ok (value :: values), s)
            | (.error failure, s) => (.error failure, s)
          intro restResult s t agree
          cases restResult <;> exact ⟨rfl, agree⟩

end

end Expr

end ParenCalc
