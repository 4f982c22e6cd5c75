import ParenCalc.Number.Numeral
import ParenCalc.Number.Shortest
import ParenCalc.Proofs.Number.Digits
/-!
# How the digits of a double are laid out

The text of a decimal has digits before a point, perhaps digits after it, and perhaps a power of ten.
However digits are laid out, the text is of this form and stands for the same number, but for zeros
that move from the exponent to the coefficient.
-/
set_option autoImplicit false

namespace ParenCalc

open Digits (Valid Whole text value)

namespace Numeral

/-! ## The form of decimals -/

/-- What may follow the digits before the point, and the digits in it. -/
inductive Fraction : Text → List Nat → Prop
  | absent : Fraction [] []
  | present (parts : List Nat) (valid : Valid parts) (nonempty : parts ≠ []) :
      Fraction (CodePoint.ofChar '.' :: text parts) parts

/-- What may follow the digits of a decimal, and the power of ten it stands for. -/
inductive Power : Text → Int → Prop
  | absent : Power [] 0
  | present (negative : Bool) (digits : List Nat) (valid : Valid digits) (nonempty : digits ≠ []) :
      Power (CodePoint.ofChar 'e' :: CodePoint.ofChar (if negative then '-' else '+') :: text digits)
        (if negative then -(value digits : Int) else value digits)

/-- The text of a decimal without a sign, which stands for `coefficient * 10^exponent`.  It is told
from an integer by a fraction or a power, and has a fraction if it is to be pointed. -/
inductive Laid (pointed : Bool) : Text → Nat → Int → Prop
  | intro (whole : List Nat) (fraction : Text) (parts : List Nat) (tail : Text) (power : Int)
      (valid : Valid whole) (isWhole : Whole whole) (isFraction : Fraction fraction parts)
      (isPower : Power tail power) (marked : fraction ++ tail ≠ [])
      (point : pointed = true → fraction ≠ []) :
      Laid pointed (text whole ++ (fraction ++ tail)) (value (whole ++ parts))
        (power - parts.length)

theorem power_exponentText (power : Int) :
    Power (CodePoint.ofChar 'e' :: Binary64.exponentText power) power := by
  have padded : ∃ digits, Valid digits ∧ digits ≠ [] ∧ value digits = power.natAbs ∧
      Binary64.exponentText power =
        CodePoint.ofChar (if decide (power < 0) then '-' else '+') :: text digits := by
    have valid := Digits.valid_ofNat power.natAbs
    by_cases short : (Digits.ofNat power.natAbs).length < 2
    · refine ⟨[0] ++ Digits.ofNat power.natAbs, ?_, by simp, ?_, ?_⟩
      · exact Digits.valid_append _ _ (Digits.valid_replicate_zero 1) valid
      · exact (Digits.value_zeros_append 1 _).trans (Digits.value_ofNat _)
      · simp only [Binary64.exponentText, if_pos short]
        by_cases below : power < 0 <;> simp [below]
    · refine ⟨Digits.ofNat power.natAbs, valid, Digits.ofNat_ne_nil _, Digits.value_ofNat _, ?_⟩
      simp only [Binary64.exponentText, if_neg short]
      by_cases below : power < 0 <;> simp [below]
  obtain ⟨digits, valid, nonempty, size, written⟩ := padded
  have same : power =
      if decide (power < 0) then -(value digits : Int) else (value digits : Int) := by
    rw [size]
    by_cases below : power < 0
    · simp only [below, decide_true, if_true]
      omega
    · simp only [below, decide_false, Bool.false_eq_true, if_false]
      omega
  rw [written]
  have present := Power.present (decide (power < 0)) digits valid nonempty
  rwa [← same] at present

/-! ## Layout -/

theorem laid_of_parts (pointed : Bool) (whole : List Nat) (fraction : Text) (parts : List Nat)
    (tail : Text) (power : Int) (valid : Valid whole) (isWhole : Whole whole)
    (isFraction : Fraction fraction parts) (isPower : Power tail power)
    (marked : fraction ++ tail ≠ []) (point : pointed = true → fraction ≠ [])
    (t : Text) (coefficient : Nat) (exponent : Int) (written : t = text whole ++ (fraction ++ tail))
    (size : coefficient = value (whole ++ parts)) (scale : exponent = power - parts.length) :
    Laid pointed t coefficient exponent := by
  subst written size scale
  exact .intro whole fraction parts tail power valid isWhole isFraction isPower marked point

section Layout

variable (pointed : Bool) (digits : List Nat) (valid : Valid digits) (whole : Whole digits)
  (place : Int)

include valid whole

omit whole in
/-- The point stands before all digits. -/
theorem laid_before (nonempty : digits ≠ []) (near : -4 < place ∧ place ≤ 16) (low : place ≤ 0) :
    Laid pointed (Binary64.layout pointed digits place) (value digits) (place - digits.length) := by
  have zerosValid := Digits.valid_replicate_zero (-place).toNat
  have fraction := Fraction.present (List.replicate (-place).toNat 0 ++ digits)
    (Digits.valid_append _ _ zerosValid valid) (by simp [nonempty])
  refine laid_of_parts pointed [0] _ _ [] 0 (Digits.valid_replicate_zero 1) Digits.whole_zero
    fraction .absent (by simp) (by simp) _ _ _ ?_ ?_ ?_
  · rw [Binary64.layout, if_pos near, if_pos low, List.append_nil]
    rfl
  · exact ((Digits.value_zeros_append 1 _).trans (Digits.value_zeros_append _ digits)).symm
  · rw [List.length_append, List.length_replicate]
    omega

/-- The point stands between two digits. -/
theorem laid_between (near : -4 < place ∧ place ≤ 16) (high : ¬ place ≤ 0)
    (inside : place < digits.length) :
    Laid pointed (Binary64.layout pointed digits place) (value digits) (place - digits.length) := by
  have wholeLength : (digits.take place.toNat).length = place.toNat := by
    rw [List.length_take]
    omega
  have partsLength : (digits.drop place.toNat).length = digits.length - place.toNat :=
    List.length_drop
  have notEmpty : digits.drop place.toNat ≠ [] := by
    intro none
    rw [none, List.length_nil] at partsLength
    omega
  have fraction := Fraction.present _ (Digits.valid_drop place.toNat digits valid) notEmpty
  refine laid_of_parts pointed (digits.take place.toNat) _ _ [] 0 (Digits.valid_take _ _ valid)
    (Digits.whole_take digits _ (by omega) whole) fraction .absent (by simp) (by simp) _ _ _ ?_ ?_ ?_
  · simp only [Binary64.layout, if_pos near, if_neg high, wholeLength, Nat.sub_self,
      List.replicate_zero, List.append_nil, if_neg notEmpty]
    rw [List.append_assoc]
    rfl
  · rw [List.take_append_drop]
  · rw [partsLength]
    omega

/-- Zeros fill up the digits before the point, and one stands after it. -/
theorem laid_behind (alone : digits = [0] → place = 1) (near : -4 < place ∧ place ≤ 16)
    (high : ¬ place ≤ 0) (outside : digits.length ≤ place) :
    Laid pointed (Binary64.layout pointed digits place)
      (value digits * 10 ^ (place.toNat - digits.length + 1)) (-1) := by
  have wholeAll : digits.take place.toNat = digits := List.take_of_length_le (by omega)
  have partsNone : digits.drop place.toNat = [] := List.drop_of_length_le (by omega)
  have fraction := Fraction.present [0] (Digits.valid_replicate_zero 1) (by simp)
  have filled : Whole (digits ++ List.replicate (place.toNat - digits.length) 0) := by
    refine Digits.whole_append _ _ whole fun zero => ?_
    rw [zero, alone zero]
    rfl
  refine laid_of_parts pointed _ _ [0] [] 0
    (Digits.valid_append _ _ valid (Digits.valid_replicate_zero _)) filled fraction .absent (by simp)
    (by simp) _ _ _ ?_ ?_ rfl
  · simp only [Binary64.layout, if_pos near, if_neg high, wholeAll, partsNone, if_true,
      List.append_nil]
    rw [List.append_assoc]
    rfl
  · rw [List.append_assoc, ← List.replicate_succ', Digits.value_append_zeros]

/-- One digit stands before the point and a power of ten after the digits. -/
theorem laid_scaled (far : ¬ (-4 < place ∧ place ≤ 16)) :
    ∃ zeros : Nat, Laid pointed (Binary64.layout pointed digits place) (value digits * 10 ^ zeros)
      (place - digits.length - zeros) := by
  have power := power_exponentText (place - 1)
  match digits, valid, whole with
  | [], _, whole => exact absurd rfl whole.1
  | [first], valid, whole =>
      cases pointed with
      | true =>
          have fraction := Fraction.present [0] (Digits.valid_replicate_zero 1) (by simp)
          refine ⟨1, laid_of_parts true [first] _ [0] _ (place - 1) valid whole fraction power
            (by simp) (by simp) _ _ _ ?_ ?_ ?_⟩
          · simp only [Binary64.layout, if_neg far, List.drop_succ_cons, List.drop_zero, if_true,
              List.take_succ_cons, List.take_zero]
            rw [List.append_assoc, List.append_assoc]
            rfl
          · exact (Digits.value_append_zeros [first] 1).symm
          · simp only [List.length_singleton]
            omega
      | false =>
          refine ⟨0, laid_of_parts false [first] [] [] _ (place - 1) valid whole .absent power
            (by simp) (by simp) _ _ _ ?_ ?_ ?_⟩
          · simp only [Binary64.layout, if_neg far, List.drop_succ_cons, List.drop_zero, if_true,
              List.take_succ_cons, List.take_zero, Bool.false_eq_true, if_false, List.append_nil,
              List.nil_append]
            rw [List.append_assoc]
            rfl
          · rw [Nat.pow_zero, Nat.mul_one, List.append_nil]
          · simp only [List.length_singleton, List.length_nil]
            omega
  | first :: second :: rest, valid, whole =>
      have fraction := Fraction.present (second :: rest) (Digits.valid_drop 1 _ valid) (by simp)
      refine ⟨0, laid_of_parts pointed [first] _ (second :: rest) _ (place - 1)
        (Digits.valid_take 1 _ valid) (Digits.whole_take _ 1 Nat.one_pos whole) fraction power
        (by simp) (by simp) _ _ _ ?_ ?_ ?_⟩
      · simp only [Binary64.layout, if_neg far, List.drop_succ_cons, List.drop_zero, reduceCtorEq,
          if_false, List.take_succ_cons, List.take_zero]
        rw [List.append_assoc, List.append_assoc]
        rfl
      · rw [Nat.pow_zero, Nat.mul_one]
        rfl
      · simp only [List.length_cons]
        omega

/-- However the digits are laid out, they stand for the same number, but for zeros that move from
the exponent to the coefficient. -/
theorem laid_layout (alone : digits = [0] → place = 1) :
    ∃ zeros : Nat, Laid pointed (Binary64.layout pointed digits place) (value digits * 10 ^ zeros)
      (place - digits.length - zeros) := by
  by_cases near : -4 < place ∧ place ≤ 16
  · by_cases low : place ≤ 0
    · have laid := laid_before pointed digits valid place whole.1 near low
      exact ⟨0, by simpa using laid⟩
    · rcases Int.lt_or_le place digits.length with inside | outside
      · have laid := laid_between pointed digits valid whole place near low inside
        exact ⟨0, by simpa using laid⟩
      · have laid := laid_behind pointed digits valid whole place alone near low outside
        have scale : place - digits.length - (place.toNat - digits.length + 1 : Nat) = -1 := by
          omega
        exact ⟨place.toNat - digits.length + 1, by rwa [scale]⟩
  · exact laid_scaled pointed digits valid whole place near

end Layout

end Numeral

end ParenCalc
