import Mathlib.Data.List.Chain
import ParenCalc.Text.CodePoint
/-!
# Halves of surrogate pairs

A code point that is a half of a surrogate pair may stand in a text alone.  Two halves in a row that
belong together are no text of their own: what is written of them is read as one code point.
-/
set_option autoImplicit false

namespace ParenCalc

namespace CodePoint

/-- The first half of a surrogate pair. -/
def IsHigh (c : CodePoint) : Prop := 0xD800 ≤ c.val ∧ c.val ≤ 0xDBFF

/-- The second half of a surrogate pair. -/
def IsLow (c : CodePoint) : Prop := 0xDC00 ≤ c.val ∧ c.val ≤ 0xDFFF

instance (c : CodePoint) : Decidable c.IsHigh :=
  inferInstanceAs (Decidable (0xD800 ≤ c.val ∧ c.val ≤ 0xDBFF))

instance (c : CodePoint) : Decidable c.IsLow :=
  inferInstanceAs (Decidable (0xDC00 ≤ c.val ∧ c.val ≤ 0xDFFF))

theorem isSurrogate_eq_false_iff (c : CodePoint) :
    c.isSurrogate = false ↔ ¬ c.IsHigh ∧ ¬ c.IsLow := by
  unfold isSurrogate IsHigh IsLow
  rw [Bool.and_eq_false_iff, decide_eq_false_iff_not, decide_eq_false_iff_not]
  omega

theorem val_ofNat (n : Nat) : (ofNat n).val = if n < 0x110000 then n else 0xFFFD := by
  unfold ofNat
  split <;> rfl

theorem isSurrogate_ofNat (n : Nat) (outside : n < 0xD800 ∨ 0xDFFF < n) :
    (ofNat n).isSurrogate = false := by
  have value := val_ofNat n
  rw [isSurrogate_eq_false_iff]
  unfold IsHigh IsLow
  split at value <;> omega

theorem isSurrogate_ofChar (c : Char) : (ofChar c).isSurrogate = false := by
  have valid : c.val.toNat < 0xD800 ∨ 0xDFFF < c.val.toNat := c.valid.imp_right And.left
  have value : (ofChar c).val = c.val.toNat := rfl
  rw [isSurrogate_eq_false_iff]
  unfold IsHigh IsLow
  omega

end CodePoint

namespace Text

def Ascii (t : Text) : Prop := ∀ c ∈ t, c.val < 0x80

/-- A text of scalar values. -/
def Scalar (t : Text) : Prop := ∀ c ∈ t, c.isSurrogate = false

/-- A text without two halves in a row that are a pair. -/
def Unsplit (t : Text) : Prop := t.IsChain fun c d => ¬ (c.IsHigh ∧ d.IsLow)

instance (t : Text) : Decidable t.Ascii := inferInstanceAs (Decidable (∀ c ∈ t, c.val < 0x80))

instance (t : Text) : Decidable t.Scalar :=
  inferInstanceAs (Decidable (∀ c ∈ t, c.isSurrogate = false))

instance (t : Text) : Decidable t.Unsplit :=
  inferInstanceAs (Decidable (t.IsChain fun c d => ¬ (c.IsHigh ∧ d.IsLow)))

theorem scalar_of_ascii (t : Text) (ascii : t.Ascii) : t.Scalar := by
  intro c member
  have low := ascii c member
  rw [CodePoint.isSurrogate_eq_false_iff]
  unfold CodePoint.IsHigh CodePoint.IsLow
  omega

theorem scalar_ofString (s : String) : (ofString s).Scalar := by
  intro c member
  obtain ⟨letter, -, rfl⟩ := List.mem_map.mp member
  exact CodePoint.isSurrogate_ofChar letter

theorem scalar_nil : Scalar [] := List.forall_mem_nil _

theorem scalar_cons (c : CodePoint) (t : Text) (first : c.isSurrogate = false) (later : Scalar t) :
    Scalar (c :: t) := by
  intro d member
  rcases List.mem_cons.mp member with rfl | inRest
  · exact first
  · exact later d inRest

theorem scalar_append (t rest : Text) (first : Scalar t) (later : Scalar rest) :
    Scalar (t ++ rest) := by
  intro c member
  exact (List.mem_append.mp member).elim (first c) (later c)

theorem unsplit_nil : Unsplit [] := .nil

theorem unsplit_cons_iff (c : CodePoint) (t : Text) :
    Unsplit (c :: t) ↔ (∀ d, t.head? = some d → ¬ (c.IsHigh ∧ d.IsLow)) ∧ Unsplit t :=
  List.isChain_cons

/-- What follows a scalar value may begin with any half. -/
theorem unsplit_cons (c : CodePoint) (t : Text) (scalar : c.isSurrogate = false)
    (unsplit : t.Unsplit) : Unsplit (c :: t) := by
  refine (unsplit_cons_iff c t).mpr ⟨?_, unsplit⟩
  intro d _ pair
  exact ((CodePoint.isSurrogate_eq_false_iff c).mp scalar).1 pair.1

theorem unsplit_append (t rest : Text) (scalar : t.Scalar) (unsplit : rest.Unsplit) :
    (t ++ rest).Unsplit := by
  induction t with
  | nil => exact unsplit
  | cons c more ih =>
      have later := ih fun d member => scalar d (List.mem_cons_of_mem c member)
      exact unsplit_cons c (more ++ rest) (scalar c List.mem_cons_self) later

theorem unsplit_of_scalar (t : Text) (scalar : t.Scalar) : t.Unsplit := by
  have whole := unsplit_append t [] scalar unsplit_nil
  rwa [List.append_nil] at whole

theorem unsplit_of_infix (t whole : Text) (part : t <:+: whole) (unsplit : whole.Unsplit) :
    t.Unsplit :=
  List.IsChain.infix unsplit part

end Text

end ParenCalc
