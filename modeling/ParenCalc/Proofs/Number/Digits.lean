import Mathlib.Algebra.Group.Nat.Defs
import Mathlib.Data.List.Induction
import ParenCalc.Number.Numeral
import ParenCalc.Proofs.Text.Runs
/-!
# Digits read back

The digits of a number stand for that number, and digits that were written as text are read off its
front one for one.
-/
set_option autoImplicit false

namespace ParenCalc

namespace Digits

/-! ## Values -/

def Valid (digits : List Nat) : Prop := ∀ d ∈ digits, d < 10

theorem foldl_eq (digits : List Nat) (start : Nat) :
    digits.foldl (fun n d => n * 10 + d) start = start * 10 ^ digits.length + value digits := by
  induction digits generalizing start with
  | nil => simp [value]
  | cons d rest ih =>
      have whole : value (d :: rest) = (0 * 10 + d) * 10 ^ rest.length + value rest := by
        rw [← ih]
        rfl
      rw [List.foldl_cons, ih, whole, List.length_cons, Nat.pow_succ', Nat.zero_mul, Nat.zero_add,
        Nat.add_mul, Nat.mul_assoc, Nat.add_assoc]

theorem value_append (front back : List Nat) :
    value (front ++ back) = value front * 10 ^ back.length + value back := by
  rw [value, List.foldl_append]
  exact foldl_eq back (value front)

/-- So many digits stay below this power of ten. -/
theorem value_lt (digits : List Nat) (valid : Valid digits) : value digits < 10 ^ digits.length := by
  induction digits with
  | nil => exact Nat.one_pos
  | cons d rest ih =>
      have low := valid d List.mem_cons_self
      have later := ih fun e member => valid e (List.mem_cons_of_mem d member)
      have leading : value [d] = d := by simp [value]
      calc value ([d] ++ rest) = d * 10 ^ rest.length + value rest := by rw [value_append, leading]
        _ < d * 10 ^ rest.length + 10 ^ rest.length := Nat.add_lt_add_left later _
        _ = (d + 1) * 10 ^ rest.length := (Nat.succ_mul d _).symm
        _ ≤ 10 * 10 ^ rest.length := Nat.mul_le_mul_right _ low
        _ = 10 ^ (d :: rest).length := (Nat.pow_succ' ..).symm

theorem value_replicate_zero (count : Nat) : value (List.replicate count 0) = 0 := by
  induction count with
  | zero => rfl
  | succ count ih =>
      rw [List.replicate_succ', value_append, ih, Nat.zero_mul]
      rfl

/-- Zeros behind the digits of a number multiply it by ten each. -/
theorem value_append_zeros (digits : List Nat) (count : Nat) :
    value (digits ++ List.replicate count 0) = value digits * 10 ^ count := by
  rw [value_append, value_replicate_zero, List.length_replicate, Nat.add_zero]

theorem value_zeros_append (count : Nat) (digits : List Nat) :
    value (List.replicate count 0 ++ digits) = value digits := by
  rw [value_append, value_replicate_zero, Nat.zero_mul, Nat.zero_add]

theorem valid_append (front back : List Nat) (frontValid : Valid front) (backValid : Valid back) :
    Valid (front ++ back) := by
  intro d member
  rcases List.mem_append.mp member with inFront | inBack
  · exact frontValid d inFront
  · exact backValid d inBack

theorem valid_replicate_zero (count : Nat) : Valid (List.replicate count 0) := by
  intro d member
  rw [List.eq_of_mem_replicate member]
  decide

theorem valid_take (count : Nat) (digits : List Nat) (valid : Valid digits) :
    Valid (digits.take count) :=
  fun d member => valid d (List.mem_of_mem_take member)

theorem valid_drop (count : Nat) (digits : List Nat) (valid : Valid digits) :
    Valid (digits.drop count) :=
  fun d member => valid d (List.mem_of_mem_drop member)

/-! ## The digits of a number -/

theorem value_onto (n : Nat) (tail : List Nat) :
    value (onto n tail) = n * 10 ^ tail.length + value tail := by
  fun_induction onto n tail with
  | case1 n tail small => rw [← List.singleton_append, value_append]; simp [value]
  | case2 n tail large ih =>
      have split : n / 10 * 10 + n % 10 = n := by omega
      rw [ih, ← List.singleton_append, value_append, List.length_append, List.length_singleton,
        Nat.add_comm 1, Nat.pow_succ', ← Nat.mul_assoc, ← Nat.add_assoc, ← Nat.add_mul]
      simp [value, split]

theorem value_ofNat (n : Nat) : value (ofNat n) = n := by
  rw [ofNat, value_onto]
  simp [value]

theorem valid_onto (n : Nat) (tail : List Nat) (valid : Valid tail) : Valid (onto n tail) := by
  fun_induction onto n tail with
  | case1 n tail small =>
      intro d member
      rcases List.mem_cons.mp member with first | later
      · omega
      · exact valid d later
  | case2 n tail large ih =>
      apply ih
      intro d member
      rcases List.mem_cons.mp member with first | later
      · omega
      · exact valid d later

theorem valid_ofNat (n : Nat) : Valid (ofNat n) :=
  valid_onto n [] fun _ member => absurd member List.not_mem_nil

theorem length_onto_le (n : Nat) (tail : List Nat) (count : Nat) (small : n < 10 ^ (count + 1)) :
    (onto n tail).length ≤ tail.length + count + 1 := by
  fun_induction onto n tail generalizing count with
  | case1 n tail low => rw [List.length_cons]; omega
  | case2 n tail large ih =>
      cases count with
      | zero => omega
      | succ count =>
          have smaller : n / 10 < 10 ^ (count + 1) := by
            rw [Nat.pow_succ] at small
            omega
          have bound := ih count smaller
          rw [List.length_cons] at bound
          omega

theorem onto_ne_nil (n : Nat) (tail : List Nat) : onto n tail ≠ [] := by
  fun_induction onto n tail with
  | case1 n tail small => simp
  | case2 n tail large ih => exact ih

theorem ofNat_ne_nil (n : Nat) : ofNat n ≠ [] := onto_ne_nil n []

/-- Digits of which a zero leads only when it stands alone. -/
def Whole (digits : List Nat) : Prop := digits ≠ [] ∧ (digits.head? = some 0 → digits = [0])

theorem whole_zero : Whole [0] := ⟨List.cons_ne_nil _ _, fun _ => rfl⟩

theorem head?_onto (n : Nat) (tail : List Nat) (notZero : n ≠ 0) : (onto n tail).head? ≠ some 0 := by
  fun_induction onto n tail with
  | case1 n tail small => simpa using notZero
  | case2 n tail large ih => exact ih (by omega)

theorem ofNat_zero : ofNat 0 = [0] := by
  unfold ofNat onto
  rfl

theorem whole_ofNat (n : Nat) : Whole (ofNat n) := by
  refine ⟨ofNat_ne_nil n, fun leading => ?_⟩
  by_cases zero : n = 0
  · rw [zero]
    exact ofNat_zero
  · exact absurd leading (head?_onto n [] zero)

theorem whole_take (digits : List Nat) (count : Nat) (positive : 0 < count) (whole : Whole digits) :
    Whole (digits.take count) := by
  cases digits with
  | nil => exact absurd rfl whole.1
  | cons d rest =>
      cases count with
      | zero => exact absurd positive (Nat.lt_irrefl 0)
      | succ count =>
          refine ⟨by simp, fun leading => ?_⟩
          cases whole.2 leading
          rw [List.take_succ_cons, List.take_nil]

theorem whole_append (front back : List Nat) (whole : Whole front)
    (alone : front = [0] → back = []) :
    Whole (front ++ back) := by
  refine ⟨by simp [whole.1], fun leading => ?_⟩
  have zero : front = [0] := by
    cases front with
    | nil => exact absurd rfl whole.1
    | cons d rest => exact whole.2 leading
  rw [alone zero, zero, List.append_nil]

theorem value_pos (digits : List Nat) (nonempty : digits ≠ []) (leading : digits.head? ≠ some 0) :
    0 < value digits := by
  cases digits with
  | nil => exact absurd rfl nonempty
  | cons d rest =>
      have positive : 0 < d := Nat.pos_of_ne_zero fun zero => leading (congrArg some zero)
      have scaled : d ≤ d * 10 ^ rest.length := Nat.le_mul_of_pos_right d (Nat.pow_pos (by decide))
      have first : value [d] = d := by simp [value]
      rw [← List.singleton_append, value_append, first]
      omega

theorem onto_value (digits tail : List Nat) (valid : Valid digits) (nonempty : digits ≠ [])
    (leading : digits.head? ≠ some 0) : onto (value digits) tail = digits ++ tail := by
  induction digits using List.reverseRecOn generalizing tail with
  | nil => exact absurd rfl nonempty
  | append_singleton front d ih =>
      have low : d < 10 := valid d (by simp)
      have size : value (front ++ [d]) = value front * 10 + d := by
        rw [value_append]
        simp [value]
      by_cases alone : front = []
      · subst alone
        rw [size]
        unfold onto
        simp [value, low]
      · have frontLeading : front.head? ≠ some 0 := by
          cases front with
          | nil => exact absurd rfl alone
          | cons e rest => exact leading
        have positive := value_pos front alone frontLeading
        have later := ih (d :: tail) (fun e member => valid e (List.mem_append_left _ member)) alone
          frontLeading
        unfold onto
        rw [size, if_neg (by omega), show (value front * 10 + d) / 10 = value front by omega,
          show (value front * 10 + d) % 10 = d by omega, later, List.append_assoc]
        rfl

/-- A number has one way to be written without leading zeros. -/
theorem ofNat_value (digits : List Nat) (valid : Valid digits) (whole : Whole digits) :
    ofNat (value digits) = digits := by
  by_cases leading : digits.head? = some 0
  · rw [whole.2 leading]
    exact ofNat_zero
  · rw [ofNat, onto_value digits [] valid whole.1 leading, List.append_nil]

/-! ## Digits as text -/

theorem isDigit_ofDigit (d : Nat) (low : d < 10) : (CodePoint.ofDigit d).isDigit = true := by
  simp [CodePoint.isDigit, low]

theorem digitValue_ofDigit (d : Nat) (low : d < 10) : (CodePoint.ofDigit d).digitValue = d := by
  simp [CodePoint.digitValue, low]

theorem isDigit_of_mem_text (digits : List Nat) (valid : Valid digits) (c : CodePoint)
    (member : c ∈ text digits) : c.isDigit = true := by
  obtain ⟨d, inDigits, rfl⟩ := List.mem_map.mp member
  exact isDigit_ofDigit d (valid d inDigits)

theorem text_append (front back : List Nat) : text (front ++ back) = text front ++ text back :=
  List.map_append

theorem length_text (digits : List Nat) : (text digits).length = digits.length := List.length_map _

theorem text_eq_nil_iff (digits : List Nat) : text digits = [] ↔ digits = [] := List.map_eq_nil_iff

@[simp]
theorem ofText_text (digits : List Nat) (valid : Valid digits) :
    ofText (text digits) = value digits := by
  have back : (text digits).map CodePoint.digitValue = digits := by
    rw [text, List.map_map]
    exact (List.map_congr_left fun d member => digitValue_ofDigit d (valid d member)).trans
      (List.map_id digits)
  rw [ofText, back]

theorem takeWhile_text (digits : List Nat) (valid : Valid digits) (rest : Text)
    (stops : Text.Stops CodePoint.isDigit rest) :
    (text digits ++ rest).takeWhile CodePoint.isDigit = text digits :=
  Text.takeWhile_append _ _ rest (isDigit_of_mem_text digits valid) stops

theorem dropWhile_text (digits : List Nat) (valid : Valid digits) (rest : Text)
    (stops : Text.Stops CodePoint.isDigit rest) :
    (text digits ++ rest).dropWhile CodePoint.isDigit = rest :=
  Text.dropWhile_append _ _ rest (isDigit_of_mem_text digits valid) stops

end Digits

end ParenCalc
