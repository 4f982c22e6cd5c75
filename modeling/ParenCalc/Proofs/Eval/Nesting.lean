import ParenCalc.Proofs.Eval.Agreement
/-!
# Nested scopes and flat ones

A chain of frames can be laid flat: one frame then binds each name to what it means in the chain.  An
expression cannot tell the two apart.  It comes to the same value or the same failure, and the names
mean the same afterwards; what it defines it defines in the nearest frame, and the frames around
that one stay as they are.
-/
set_option autoImplicit false

namespace ParenCalc

namespace Frame

theorem get?_defineAll (f : Frame) (bindings : List (Symbol × Number))
    (distinct : (bindings.map Prod.fst).Nodup) (x : Symbol) :
    (defineAll f bindings).get? x =
      ((bindings.find? fun binding => binding.1 = x).map Prod.snd).or (f.get? x) := by
  induction bindings generalizing f with
  | nil => rfl
  | cons binding rest ih =>
      obtain ⟨y, value⟩ := binding
      rw [List.map_cons, List.nodup_cons] at distinct
      have first : defineAll f ((y, value) :: rest) = defineAll (f.insert y value) rest := rfl
      rw [first, ih (f.insert y value) distinct.2, OrderedMap.get?_insert, List.find?_cons]
      by_cases same : y = x
      · have absent : (rest.find? fun binding => binding.1 = x) = none := by
          rw [List.find?_eq_none]
          intro binding member hit
          have found : binding.1 = y := (of_decide_eq_true hit).trans same.symm
          exact distinct.1 (List.mem_map.mpr ⟨binding, member, found⟩)
        simp [same, absent]
      · simp [same]

/-- A chain of frames as one frame: what the nearer frames bind is defined later and so prevails. -/
def flatten : List Frame → Frame
  | [] => .empty
  | f :: outer => defineAll (flatten outer) f.entries

theorem get?_flatten (frames : List Frame) (x : Symbol) :
    (flatten frames).get? x = Scope.lookupIn? x frames := by
  induction frames with
  | nil => rfl
  | cons f outer ih =>
      have bound : ((f.entries.find? fun entry => entry.1 = x).map Prod.snd) = f.get? x := rfl
      rw [flatten, get?_defineAll _ _ f.nodup, bound, ih, Scope.lookupIn?]
      cases f.get? x <;> rfl

end Frame

namespace Scope

/-- One frame binds each name to what it means in the scope. -/
def IsFlat (s : Scope) (g : Frame) : Prop := ∀ x, g.get? x = s.lookup? x

theorem isFlat_flatten (s : Scope) : s.IsFlat (Frame.flatten s.frames) :=
  Frame.get?_flatten s.frames

end Scope

/-- A scope, however deep it is nested, can be laid flat, and evaluating an expression in it is
evaluating it in any one frame that binds each name to what it means in the scope: the result is the
same value or the same failure, and this frame has become one that binds each name to what it means
in the scope then.  The frames around the nearest one hold what they held before. -/
theorem nested_scope_evaluates_flat (e : Expr) (s : Scope) :
    (∃ g, s.IsFlat g) ∧
    ∀ g, s.IsFlat g →
      ∃ after, e.eval (.root g) = ((e.eval s).1, .root after) ∧ (e.eval s).2.IsFlat after ∧
        (e.eval s).2.outer = s.outer := by
  refine ⟨⟨Frame.flatten s.frames, s.isFlat_flatten⟩, ?_⟩
  intro g flat
  have agree : Scope.AgreeOn (fun _ => True) s (.root g) := by
    intro x _
    rw [Scope.lookup?_root, flat x]
  obtain ⟨result, stillAgree⟩ := e.sideBySide_eval _ s (.root g) (fun _ _ => trivial) agree
  have alone := Scope.root_of_outer (e.eval (.root g)).2 (e.outer_eval (.root g))
  refine ⟨(e.eval (.root g)).2.frame, ?_, ?_, e.outer_eval s⟩
  · rw [result, ← alone]
  · intro x
    rw [← Scope.lookup?_root, ← alone, stillAgree x trivial]

/-- A definition that reads the outer value of the name that it shadows. -/
theorem shadowing_definition_evaluates_flat :
    let x : Symbol := ⟨"x", by decide⟩
    let y : Symbol := ⟨"y", by decide⟩
    let s : Scope := ⟨.ofList [(y, .int 2)], [.ofList [(x, .int 5), (y, .int 7)]]⟩
    let g := Frame.flatten s.frames
    let e : Expr := .definition x (.application Arithmetic.add.symbol [.reference x, .reference y])
    s.IsFlat g ∧ (e.eval s).1.toOption = some (.int 7) ∧ (e.eval s).2.frame.keys = [y, x] ∧
      ∃ after, e.eval (.root g) = ((e.eval s).1, .root after) ∧ (e.eval s).2.IsFlat after ∧
        (e.eval s).2.outer = s.outer := by
  intro x y s g e
  have flat : s.IsFlat g := s.isFlat_flatten
  exact ⟨flat, by decide +kernel, by decide +kernel,
    (nested_scope_evaluates_flat e s).2 g flat⟩

end ParenCalc
