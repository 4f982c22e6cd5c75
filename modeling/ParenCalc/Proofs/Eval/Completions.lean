import ParenCalc.Eval
/-!
# Definitions that are completed

An evaluation changes its scope in one way only: it completes definitions.  `completed` lists them in
their order, whether the evaluation comes to a value or fails on its way.  What an evaluation leaves
is its scope with these definitions made, and no others; `targets` are the names that they can be of.
-/
set_option autoImplicit false

namespace ParenCalc

/-! ## Definitions one after another -/

/-- The frame after some definitions. -/
def Frame.defineAll (f : Frame) (bindings : List (Symbol × Number)) : Frame :=
  bindings.foldl (fun f binding => f.insert binding.1 binding.2) f

/-- The scope after some definitions in its own frame. -/
def Scope.defineAll (s : Scope) (bindings : List (Symbol × Number)) : Scope :=
  { s with frame := Frame.defineAll s.frame bindings }

namespace Scope

theorem root_of_outer (s : Scope) (outermost : s.outer = []) : s = .root s.frame := by
  rw [root, ← outermost]

@[simp]
theorem defineAll_nil (s : Scope) : s.defineAll [] = s := rfl

@[simp]
theorem defineAll_append (s : Scope) (first second : List (Symbol × Number)) :
    s.defineAll (first ++ second) = (s.defineAll first).defineAll second := by
  simp only [defineAll, Frame.defineAll, List.foldl_append]

theorem defineAll_concat (s : Scope) (bindings : List (Symbol × Number)) (x : Symbol)
    (value : Number) :
    s.defineAll (bindings ++ [(x, value)]) = (s.defineAll bindings).define x value := by
  rw [defineAll_append]
  rfl

end Scope

namespace Expr

mutual

/-- The definitions that the evaluation of an expression completes. -/
def completed : Expr → Scope → List (Symbol × Number)
  | .literal _, _ => []
  | .reference _, _ => []
  | .definition x e, s =>
    match (e.eval s).1 with
    | .ok value => e.completed s ++ [(x, value)]
    | .error _ => e.completed s
  | .conditional test yes no, s =>
    match test.eval s with
    | (.ok value, after) =>
      test.completed s ++ if value.isTruthy then yes.completed after else no.completed after
    | (.error _, _) => test.completed s
  | .application x arguments, s =>
    if (Operator.ofSymbol? x).isSome then completedAll arguments s else []
  | .alien _, _ => []

def completedAll : List Expr → Scope → List (Symbol × Number)
  | [], _ => []
  | e :: rest, s =>
    match e.eval s with
    | (.ok _, after) => e.completed s ++ completedAll rest after
    | (.error _, _) => e.completed s

end

mutual

theorem scope_eval : ∀ (e : Expr) (s : Scope), (e.eval s).2 = s.defineAll (e.completed s)
  | .literal n, s => by simp only [eval, completed, Scope.defineAll_nil]
  | .reference x, s => by
      simp only [eval, completed, Scope.defineAll_nil]
      cases s.lookup? x <;> rfl
  | .definition x e, s => by
      have inner := scope_eval e s
      simp only [eval, completed]
      rcases run : e.eval s with ⟨result, after⟩
      rw [run] at inner
      cases result with
      | error failure => exact inner
      | ok value =>
          dsimp only at inner ⊢
          rw [inner, Scope.defineAll_concat]
  | .conditional test yes no, s => by
      have tested := scope_eval test s
      simp only [eval, completed]
      rcases run : test.eval s with ⟨result, after⟩
      rw [run] at tested
      cases result with
      | error failure => exact tested
      | ok value =>
          dsimp only at tested ⊢
          rw [Scope.defineAll_append, ← tested]
          split
          · exact scope_eval yes after
          · exact scope_eval no after
  | .application x arguments, s => by
      have inner := scope_evalAll arguments s
      simp only [eval, completed]
      cases found : Operator.ofSymbol? x with
      | none => exact s.defineAll_nil.symm
      | some op =>
          simp only [Option.isSome_some, if_true, ← inner]
          rcases evalAll arguments s with ⟨result, after⟩
          cases result <;> rfl
  | .alien d, s => by simp only [eval, completed, Scope.defineAll_nil]

theorem scope_evalAll : ∀ (arguments : List Expr) (s : Scope),
    (evalAll arguments s).2 = s.defineAll (completedAll arguments s)
  | [], s => by simp only [evalAll, completedAll, Scope.defineAll_nil]
  | e :: rest, s => by
      have first := scope_eval e s
      simp only [evalAll, completedAll]
      rcases run : e.eval s with ⟨result, between⟩
      rw [run] at first
      cases result with
      | error failure => exact first
      | ok value =>
          have later := scope_evalAll rest between
          dsimp only at first ⊢
          rw [Scope.defineAll_append, ← first, ← later]
          rcases evalAll rest between with ⟨restResult, after⟩
          cases restResult <;> rfl

end

theorem outer_eval (e : Expr) (s : Scope) : (e.eval s).2.outer = s.outer := by
  rw [scope_eval]
  rfl

/-! ## Names that are defined -/

mutual

/-- The names that the definitions in an expression take. -/
def targets : Expr → List Symbol
  | .literal _ => []
  | .reference _ => []
  | .definition x e => x :: e.targets
  | .conditional test yes no => test.targets ++ (yes.targets ++ no.targets)
  | .application _ arguments => targetsOfAll arguments
  | .alien _ => []

def targetsOfAll : List Expr → List Symbol
  | [] => []
  | e :: rest => e.targets ++ targetsOfAll rest

end

mutual

/-- No other names are defined. -/
theorem target_of_completed : ∀ (e : Expr) (s : Scope),
    ∀ binding ∈ e.completed s, binding.1 ∈ e.targets
  | .literal _, _ | .reference _, _ | .alien _, _ => List.forall_mem_nil _
  | .definition x e, s => by
      have inner := target_of_completed e s
      intro binding member
      rw [targets, List.mem_cons]
      unfold completed at member
      split at member
      · rcases List.mem_append.mp member with before | own
        · exact .inr (inner binding before)
        · exact .inl (congrArg Prod.fst (List.mem_singleton.mp own))
      · exact .inr (inner binding member)
  | .conditional test yes no, s => by
      have tested := target_of_completed test s
      intro binding member
      rw [targets, List.mem_append, List.mem_append]
      unfold completed at member
      split at member
      · rename_i value after _
        rcases List.mem_append.mp member with before | chosen
        · exact .inl (tested binding before)
        · split at chosen
          · exact .inr (.inl (target_of_completed yes after binding chosen))
          · exact .inr (.inr (target_of_completed no after binding chosen))
      · exact .inl (tested binding member)
  | .application x arguments, s => by
      have inner := target_of_completedAll arguments s
      intro binding member
      unfold completed at member
      split at member
      · exact inner binding member
      · cases member

theorem target_of_completedAll : ∀ (arguments : List Expr) (s : Scope),
    ∀ binding ∈ completedAll arguments s, binding.1 ∈ targetsOfAll arguments
  | [], _ => List.forall_mem_nil _
  | e :: rest, s => by
      have first := target_of_completed e s
      intro binding member
      rw [targetsOfAll, List.mem_append]
      unfold completedAll at member
      split at member
      · rename_i value after _
        rcases List.mem_append.mp member with before | later
        · exact .inl (first binding before)
        · exact .inr (target_of_completedAll rest after binding later)
      · exact .inl (first binding member)

end

end Expr

end ParenCalc
