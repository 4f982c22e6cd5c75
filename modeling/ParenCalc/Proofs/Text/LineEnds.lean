import Mathlib.Data.List.Basic
import ParenCalc.Symbol
import ParenCalc.Text.Lines
/-!
# Line ends

The rows of a text are what stands between its line feeds; the lines of a text keep them.  A text is
taken line by line: what has no line feed is one row, and one line unless it is empty.
-/
set_option autoImplicit false

namespace ParenCalc

namespace Text

def Unbroken (t : Text) : Prop := CodePoint.ofChar '\n' ∉ t

instance (t : Text) : Decidable t.Unbroken := inferInstanceAs (Decidable (_ ∉ t))

theorem unbroken_append (s t : Text) : (s ++ t).Unbroken ↔ s.Unbroken ∧ t.Unbroken := by
  simp only [Unbroken, List.mem_append, not_or]

theorem not_mem_of_isName (t : Text) (name : t.isName = true) (c : CodePoint)
    (outside : c.isNamePart = false) : c ∉ t := by
  intro member
  unfold isName at name
  rw [Bool.and_eq_true, List.all_eq_true] at name
  rw [name.2 c member] at outside
  cases outside

theorem unbroken_of_isName (t : Text) (name : t.isName = true) : t.Unbroken :=
  not_mem_of_isName t name _ (by decide)

/-! ## Rows -/

def rows (t : Text) : List Text := t.splitOn (CodePoint.ofChar '\n')

theorem rows_of_unbroken (t : Text) (unbroken : t.Unbroken) : t.rows = [t] :=
  List.splitOn_eq_singleton unbroken

/-- Items that each begin a row, between a front and a tail. -/
theorem rows_items {α : Type} (shown : α → Text) (tail : Text) (init : List α) (last : α)
    (front : Text) :
    Text.rows
        (front ++ (init ++ [last]).flatMap (fun item => CodePoint.ofChar '\n' :: shown item) ++
          tail) =
      front.rows ++ init.flatMap (fun item => (shown item).rows) ++ (shown last ++ tail).rows := by
  induction init generalizing front with
  | nil =>
      rw [List.nil_append, List.flatMap_singleton, List.append_assoc, List.cons_append, rows,
        List.splitOn_append_cons_self, List.flatMap_nil, List.append_nil]
      rfl
  | cons item rest ih =>
      have next := ih (shown item)
      rw [List.cons_append, List.flatMap_cons, List.append_assoc, List.append_assoc,
        List.cons_append, rows, List.splitOn_append_cons_self, ← List.append_assoc, ← rows, ← rows,
        next, List.flatMap_cons]
      simp only [List.append_assoc]

/-! ## Lines -/

theorem lines_of_unbroken (t : Text) (nonempty : t ≠ []) (unbroken : t.Unbroken) :
    t.lines = [t] := by
  induction t with
  | nil => exact absurd rfl nonempty
  | cons c rest ih =>
      obtain ⟨plain, restUnbroken⟩ := not_or.mp (mt List.mem_cons.mpr unbroken)
      rw [lines, if_neg (Ne.symm plain)]
      cases rest with
      | nil => rfl
      | cons d more => rw [ih (List.cons_ne_nil d more) restUnbroken]

theorem lines_append_line (first rest : Text) (unbroken : first.Unbroken) :
    lines (first ++ CodePoint.ofChar '\n' :: rest) =
      (first ++ [CodePoint.ofChar '\n']) :: lines rest := by
  induction first with
  | nil => rw [List.nil_append, lines, if_pos rfl, List.nil_append]
  | cons c more ih =>
      obtain ⟨plain, moreUnbroken⟩ := not_or.mp (mt List.mem_cons.mpr unbroken)
      rw [List.cons_append, lines, if_neg (Ne.symm plain), ih moreUnbroken, List.cons_append]

/-- A text is empty, or a line without an end, or a line and the text behind its end. -/
theorem lines_induction {motive : Text → Prop} (nil : motive [])
    (last : ∀ t : Text, t ≠ [] → t.Unbroken → motive t)
    (line : ∀ first rest : Text, first.Unbroken → motive rest →
      motive (first ++ CodePoint.ofChar '\n' :: rest)) (t : Text) : motive t := by
  by_cases unbroken : t.Unbroken
  · by_cases empty : t = []
    · rw [empty]
      exact nil
    · exact last t empty unbroken
  · obtain ⟨first, rest, split, firstUnbroken⟩ :=
      List.eq_append_cons_of_mem (Decidable.not_not.mp unbroken)
    rw [split]
    exact line first rest firstUnbroken (lines_induction nil last line rest)
termination_by t.length
decreasing_by
  rw [split, List.length_append, List.length_cons]
  omega

/-- Without carriage returns there are no other line ends to fold. -/
theorem foldLineEnds_of_not_mem (t : Text) (noReturn : CodePoint.ofChar '\r' ∉ t) :
    t.foldLineEnds = t := by
  induction t with
  | nil => rfl
  | cons c rest ih =>
      obtain ⟨other, restFree⟩ := not_or.mp (mt List.mem_cons.mpr noReturn)
      cases rest with
      | nil => rw [foldLineEnds, if_neg (Ne.symm other)]
      | cons d more => rw [foldLineEnds, if_neg (Ne.symm other), ih restFree]

end Text

end ParenCalc
