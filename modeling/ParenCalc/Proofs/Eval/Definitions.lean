import ParenCalc.Datum.Reader
import ParenCalc.Proofs.Eval.Completions
/-!
# What evaluation may bind

Evaluating an expression takes no name away and gives no name another place; a name gets another
value only if the text has it where a definition takes its name.
-/
set_option autoImplicit false

namespace ParenCalc

/-! ## Names that definitions take -/

/-- Somewhere in the datum a definition takes this name. -/
inductive Datum.Defines (x : Symbol) : Datum → Prop
  | here (value : Datum) : Defines x (.list [.symbol .define, .symbol x, value])
  | within (items : List Datum) (d : Datum) (member : d ∈ items) (inside : Defines x d) :
      Defines x (.list items)

/-- Somewhere in the datum that a text denotes a definition takes this name. -/
def Text.Defines (x : Symbol) (text : Text) : Prop :=
  ∃ d, Datum.read text = .ok d ∧ d.Defines x

/-- What a frame may become when only some names may get another value. -/
structure Frame.Extends (names : Symbol → Prop) (before after : Frame) : Prop where
  keys : before.keys <+: after.keys
  same : ∀ x, ¬ names x → after.get? x = before.get? x

namespace Frame

theorem extends_refl (names : Symbol → Prop) (f : Frame) : Frame.Extends names f f :=
  ⟨List.prefix_refl _, fun _ _ => rfl⟩

theorem extends_trans (names : Symbol → Prop) (before between after : Frame)
    (first : Frame.Extends names before between) (second : Frame.Extends names between after) :
    Frame.Extends names before after := by
  refine ⟨first.keys.trans second.keys, ?_⟩
  intro x other
  rw [second.same x other, first.same x other]

theorem extends_mono (names more : Symbol → Prop) (before after : Frame)
    (among : ∀ x, names x → more x) (step : Frame.Extends names before after) :
    Frame.Extends more before after :=
  ⟨step.keys, fun x other => step.same x fun named => other (among x named)⟩

theorem extends_insert (names : Symbol → Prop) (f : Frame) (x : Symbol) (value : Number)
    (named : names x) : Frame.Extends names f (f.insert x value) := by
  refine ⟨?_, ?_⟩
  · rw [OrderedMap.keys_insert]
    split
    · exact List.prefix_refl _
    · exact List.prefix_append _ _
  · intro y other
    have different : x ≠ y := fun same => other (same ▸ named)
    rw [OrderedMap.get?_insert, if_neg different]

theorem extends_defineAll (names : Symbol → Prop) (f : Frame) (bindings : List (Symbol × Number))
    (named : ∀ binding ∈ bindings, names binding.1) :
    Frame.Extends names f (f.defineAll bindings) := by
  induction bindings generalizing f with
  | nil => exact extends_refl names f
  | cons binding rest ih =>
      have first := extends_insert names f binding.1 binding.2 (named binding List.mem_cons_self)
      have later := ih (f.insert binding.1 binding.2) fun other member =>
        named other (List.mem_cons_of_mem binding member)
      exact extends_trans names f _ _ first later

end Frame

namespace Expr

/-- Only the names that the definitions in an expression take may get another value. -/
theorem extends_targets (e : Expr) (s : Scope) :
    Frame.Extends (fun x => x ∈ e.targets) s.frame (e.eval s).2.frame := by
  rw [scope_eval]
  exact Frame.extends_defineAll _ s.frame _ (e.target_of_completed s)

mutual

theorem defines_of_target : ∀ (e : Expr) (x : Symbol), x ∈ e.targets → e.toDatum.Defines x
  | .definition y e, x, member => by
      rcases List.mem_cons.mp member with rfl | inside
      · exact .here e.toDatum
      · exact .within _ e.toDatum (by simp) (defines_of_target e x inside)
  | .conditional test yes no, x, member => by
      have part (d : Datum) (member : d ∈ [test.toDatum, yes.toDatum, no.toDatum])
          (inside : d.Defines x) : (Expr.conditional test yes no).toDatum.Defines x :=
        .within _ d (List.mem_cons_of_mem _ member) inside
      rw [targets, List.mem_append, List.mem_append] at member
      rcases member with inTest | inYes | inNo
      · exact part test.toDatum (by simp) (defines_of_target test x inTest)
      · exact part yes.toDatum (by simp) (defines_of_target yes x inYes)
      · exact part no.toDatum (by simp) (defines_of_target no x inNo)
  | .application f arguments, x, member => by
      obtain ⟨d, among, inside⟩ := defines_of_targetAmong arguments x member
      exact .within _ d (List.mem_cons_of_mem _ among) inside

theorem defines_of_targetAmong : ∀ (arguments : List Expr) (x : Symbol),
    x ∈ targetsOfAll arguments → ∃ d ∈ toData arguments, d.Defines x
  | e :: rest, x, member => by
      rcases List.mem_append.mp member with first | later
      · exact ⟨e.toDatum, List.mem_cons_self, defines_of_target e x first⟩
      · obtain ⟨d, among, inside⟩ := defines_of_targetAmong rest x later
        exact ⟨d, List.mem_cons_of_mem _ among, inside⟩

end

theorem extends_eval (e : Expr) (s : Scope) :
    Frame.Extends (fun x => e.toDatum.Defines x) s.frame (e.eval s).2.frame :=
  Frame.extends_mono _ _ _ _ e.defines_of_target (e.extends_targets s)

end Expr

end ParenCalc
