import Mathlib.Algebra.BigOperators.Ring.List
import Mathlib.Data.Rat.Cast.Defs
import ParenCalc.Proofs.Eval.Failures
/-!
# Arithmetic of integers is exact

A fold of integers is compared with the same fold of fractions.  As long as the steps come to
integers the fold holds the exact value, however wide it gets; the first quotient that is none
leaves the integers for good.  Multiplied by the divisors that are still to come the exact value of
the whole gives that quotient back, so it is no integer either.  What a fold of integers comes to is
its exact value, then, and never another integer.
-/
set_option autoImplicit false

namespace ParenCalc

namespace Arithmetic

/-- The operation on fractions. -/
def onFractions : Arithmetic → ℚ → ℚ → ℚ
  | .add => (· + ·)
  | .sub => (· - ·)
  | .mul => (· * ·)
  | .div => (· / ·)

/-- The exact value of a fold of integers from the left. -/
def exactValue (op : Arithmetic) (q : ℚ) (rest : List Int) : ℚ :=
  rest.foldl (fun (q : ℚ) (b : Int) => op.onFractions q b) q

theorem exactValue_cons (op : Arithmetic) (q : ℚ) (b : Int) (rest : List Int) :
    op.exactValue q (b :: rest) = op.exactValue (op.onFractions q b) rest := rfl

/-! ## Closed forms -/

theorem exactValue_add (q : ℚ) (rest : List Int) :
    exactValue .add q rest = q + (rest.sum : Int) := by
  induction rest generalizing q with
  | nil => simp [exactValue]
  | cons b rest ih =>
      rw [exactValue_cons, ih, List.sum_cons, Int.cast_add, ← add_assoc]
      rfl

theorem exactValue_mul (q : ℚ) (rest : List Int) :
    exactValue .mul q rest = q * (rest.prod : Int) := by
  induction rest generalizing q with
  | nil => simp [exactValue]
  | cons b rest ih =>
      rw [exactValue_cons, ih, List.prod_cons, Int.cast_mul, ← mul_assoc]
      rfl

theorem exactValue_div (q : ℚ) (rest : List Int) :
    exactValue .div q rest = q / (rest.prod : Int) := by
  induction rest generalizing q with
  | nil => simp [exactValue]
  | cons b rest ih =>
      rw [exactValue_cons, ih, List.prod_cons, Int.cast_mul, ← div_div]
      rfl

theorem integer_eq_div_iff (i a d : Int) (notZero : d ≠ 0) : (i : ℚ) = a / d ↔ i * d = a := by
  have divisor : (d : ℚ) ≠ 0 := Int.cast_ne_zero.mpr notZero
  rw [eq_div_iff divisor]
  exact_mod_cast Iff.rfl

/-- A fraction that divisions by integers turn into an integer is one itself. -/
theorem integer_of_exactValue_div (q : ℚ) (rest : List Int) (divisors : 0 ∉ rest) (i : Int)
    (exact : (i : ℚ) = exactValue .div q rest) : ∃ j : Int, (j : ℚ) = q := by
  have notZero : ((rest.prod : Int) : ℚ) ≠ 0 := Int.cast_ne_zero.mpr (List.prod_ne_zero divisors)
  rw [exactValue_div, eq_div_iff notZero] at exact
  exact ⟨i * rest.prod, by rw [Int.cast_mul, exact]⟩

/-! ## One step -/

/-- A step from an integer by an integer is exact, unless it is a division that does not come out
even. -/
theorem combine?_int (op : Arithmetic) (a b : Int)
    (notZero : op = .div → (Number.int b).isZero = false) :
    (∃ c : Int, (c : ℚ) = op.onFractions a b ∧
      op.combine? (.int a) (.int b) notZero = some (.int c)) ∨
    (op = .div ∧ (∀ c : Int, (c : ℚ) ≠ op.onFractions a b) ∧
      ∀ next, op.combine? (.int a) (.int b) notZero = some next → ∃ x, next = .float x) := by
  cases op with
  | add => exact .inl ⟨a + b, Int.cast_add a b, rfl⟩
  | sub => exact .inl ⟨a - b, Int.cast_sub a b, rfl⟩
  | mul => exact .inl ⟨a * b, Int.cast_mul a b, rfl⟩
  | div =>
      have divisor : b ≠ 0 := by
        rintro rfl
        have zero := (Number.isZero_int 0).mpr rfl
        rw [notZero rfl] at zero
        exact Bool.false_ne_true zero
      by_cases even : a % b = 0
      · refine .inl ⟨a / b, ?_, ?_⟩
        · exact (integer_eq_div_iff _ a b divisor).mpr
            (Int.ediv_mul_cancel (Int.dvd_of_emod_eq_zero even))
        · simp only [combine?, Number.div?, if_pos even]
      · refine .inr ⟨rfl, ?_, ?_⟩
        · intro c exact
          have whole := (integer_eq_div_iff c a b divisor).mp exact
          exact even (Int.emod_eq_zero_of_dvd ⟨c, by rw [← whole, Int.mul_comm]⟩)
        · intro next combined
          simp only [combine?, Number.div?, if_neg even] at combined
          split at combined
          · exact ⟨_, (Option.some.inj combined).symm⟩
          · cases combined

/-- A step from a double is to a double. -/
theorem combine?_float (op : Arithmetic) (x : Binary64) (b next : Number)
    (notZero : op = .div → b.isZero = false)
    (combined : op.combine? (.float x) b notZero = some next) : ∃ y, next = .float y := by
  have asDoubles (rounded : Binary64 → Binary64 → Binary64)
      (run : (do return Number.float (rounded (← (Number.float x).toBinary64?) (← b.toBinary64?))) =
        some next) : ∃ y, next = .float y := by
    obtain ⟨left, -, rest⟩ := Option.bind_eq_some_iff.mp run
    obtain ⟨right, -, value⟩ := Option.bind_eq_some_iff.mp rest
    exact ⟨_, (Option.some.inj value).symm⟩
  cases op with
  | add => exact asDoubles Binary64.add combined
  | sub => exact asDoubles Binary64.sub combined
  | mul => exact asDoubles Binary64.mul combined
  | div => exact asDoubles Binary64.div combined

/-! ## Folds -/

/-- A fold that has left the integers does not come back to them. -/
theorem fold_float (op : Arithmetic) (operands : List Number) (x : Binary64) (rest : List Number)
    (n : Number) (run : op.fold operands (.float x) rest = .ok n) : ∃ y, n = .float y := by
  induction rest generalizing x with
  | nil =>
      unfold fold settle at run
      split at run
      · exact ⟨x, (Except.ok.inj run).symm⟩
      · cases run
  | cons b rest ih =>
      unfold fold at run
      split at run
      · cases run
      · dsimp only at run
        split at run
        · rename_i next combined
          obtain ⟨y, rfl⟩ := op.combine?_float x b next _ combined
          exact ih y run
        · cases run

/-- A fold of integers comes to its exact value, or that is no integer and neither is what the fold
comes to. -/
theorem fold_integers (op : Arithmetic) (operands : List Number) (a : Int) (rest : List Int)
    (divisors : op = .div → 0 ∉ rest) :
    (∃ i : Int, (i : ℚ) = op.exactValue a rest ∧
      op.fold operands (.int a) (rest.map Number.int) = op.settle operands (.int i)) ∨
    (op = .div ∧ (∀ i : Int, (i : ℚ) ≠ op.exactValue a rest) ∧
      ∀ n, op.fold operands (.int a) (rest.map Number.int) = .ok n → ∃ x, n = .float x) := by
  -- the integer that has been reached carries the exact value of the steps behind it
  induction rest generalizing a with
  | nil => exact .inl ⟨a, rfl, rfl⟩
  | cons b rest ih =>
      have nonzero (division : op = .div) : ¬ (Number.int b).isZero = true := by
        rw [Number.isZero_int]
        exact fun zero => divisors division (zero ▸ List.mem_cons_self)
      have later (division : op = .div) : 0 ∉ rest :=
        fun member => divisors division (List.mem_cons_of_mem b member)
      rw [List.map_cons, fold, dif_neg fun byZero => nonzero byZero.1 byZero.2, exactValue_cons]
      dsimp only
      rcases op.combine?_int a b fun division => Bool.eq_false_iff.mpr (nonzero division) with
        ⟨c, exact, step⟩ | ⟨division, fraction, leaves⟩
      · rw [step, ← exact]
        exact ih c later
      · refine .inr ⟨division, ?_, ?_⟩
        · intro i exact
          subst division
          obtain ⟨j, whole⟩ := integer_of_exactValue_div _ rest (later rfl) i exact
          exact fraction j whole
        · intro n run
          split at run
          · rename_i next combined
            obtain ⟨x, rfl⟩ := leaves next combined
            exact op.fold_float operands x _ n run
          · cases run

theorem fold_div_by_zero (operands : List Number) (acc : Number) (rest : List Int)
    (zero : 0 ∈ rest) :
    ∃ cause, fold .div operands acc (rest.map Number.int) = .error cause := by
  induction rest generalizing acc with
  | nil => cases zero
  | cons b rest ih =>
      rw [List.map_cons, fold]
      split
      · exact ⟨_, rfl⟩
      · rename_i notByZero
        dsimp only
        split
        · refine ih _ (List.mem_of_ne_of_mem ?_ zero)
          rintro rfl
          exact notByZero ⟨rfl, (Number.isZero_int 0).mpr rfl⟩
        · exact ⟨_, rfl⟩

/-! ## Results -/

/-- The result when the exact value is an integer: that integer, or a fault if it is too wide. -/
def integerResult (op : Arithmetic) (operands : List Number) (i : Int) : Except Failure Number :=
  if Number.bitLength i ≤ Number.maxBits then .ok (.int i)
  else .error (.fault (.arithmetic (.integerOverflow op operands)))

theorem mapError_settle_int (op : Arithmetic) (operands : List Number) (i : Int) :
    (op.settle operands (.int i)).mapError (fun cause => .fault (.arithmetic cause)) =
      op.integerResult operands i := by
  simp only [settle, integerResult, Number.isAdmissible, decide_eq_true_eq]
  split <;> rfl

theorem eq_of_integerResult (op : Arithmetic) (operands : List Number) (i j : Int)
    (result : op.integerResult operands i = .ok (.int j)) :
    i = j ∧ Number.bitLength i ≤ Number.maxBits := by
  unfold integerResult at result
  split at result
  · rename_i narrow
    exact ⟨Number.int.inj (Except.ok.inj result), narrow⟩
  · cases result

/-- What the exact value of a fold of integers says about its result. -/
structure IsExact (op : Arithmetic) (a : Int) (rest : List Int)
    (result : Except Failure Number) : Prop where
  byZero : op = .div → 0 ∈ rest → ∃ cause, result = .error (.fault (.arithmetic cause))
  integer : (op = .div → 0 ∉ rest) → ∀ i : Int, (i : ℚ) = op.exactValue a rest →
    result = op.integerResult ((a :: rest).map Number.int) i
  fraction : (op = .div → 0 ∉ rest) → (∀ i : Int, (i : ℚ) ≠ op.exactValue a rest) →
    op = .div ∧ ((∃ x, x.isFinite = true ∧ result = .ok (.float x)) ∨
      ∃ cause, result = .error (.fault (.arithmetic cause)))

theorem isExact_apply (op : Arithmetic) (a : Int) (rest : List Int) :
    op.IsExact a rest (op.apply ((a :: rest).map Number.int)) := by
  have unfolded : op.apply ((a :: rest).map Number.int) =
      (op.fold ((a :: rest).map Number.int) (.int a) (rest.map Number.int)).mapError
        fun cause => .fault (.arithmetic cause) := rfl
  have folds := op.fold_integers ((a :: rest).map Number.int) a rest
  constructor
  · rintro rfl zero
    obtain ⟨cause, run⟩ := fold_div_by_zero ((a :: rest).map Number.int) (.int a) rest zero
    exact ⟨cause, by rw [unfolded, run]; rfl⟩
  · intro divisors i exact
    rcases folds divisors with ⟨j, value, run⟩ | ⟨-, fraction, -⟩
    · have same : i = j := Int.cast_injective (exact.trans value.symm)
      rw [unfolded, run, mapError_settle_int, same]
    · exact absurd exact (fraction i)
  · intro divisors fraction
    rcases folds divisors with ⟨j, value, -⟩ | ⟨division, -, leaves⟩
    · exact absurd value (fraction j)
    · refine ⟨division, ?_⟩
      have answers := op.answers_apply (.int a) (rest.map Number.int)
      rw [← List.map_cons, unfolded] at answers
      rw [unfolded]
      cases run : op.fold ((a :: rest).map Number.int) (.int a) (rest.map Number.int) with
      | error cause => exact .inr ⟨cause, rfl⟩
      | ok n =>
          obtain ⟨x, rfl⟩ := leaves n run
          rw [run] at answers
          exact .inl ⟨x, answers, rfl⟩

/-! ## Order and divisibility -/

/-- Sums and products are the same in any order, and so are the widths that are refused. -/
theorem apply_perm (op : Arithmetic) (a b : Int) (rest others : List Int)
    (commutes : op = .add ∨ op = .mul) (permuted : (b :: others).Perm (a :: rest)) :
    ∃ i : Int,
      op.apply ((a :: rest).map Number.int) =
        op.integerResult ((a :: rest).map Number.int) i ∧
      op.apply ((b :: others).map Number.int) =
        op.integerResult ((b :: others).map Number.int) i := by
  have left := (op.isExact_apply a rest).integer
  have right := (op.isExact_apply b others).integer
  rcases commutes with rfl | rfl
  · refine ⟨(a :: rest).sum, left (by simp) _ ?_, right (by simp) _ ?_⟩
    · rw [exactValue_add, List.sum_cons, Int.cast_add]
    · rw [exactValue_add, ← permuted.sum_eq, List.sum_cons, Int.cast_add]
  · refine ⟨(a :: rest).prod, left (by simp) _ ?_, right (by simp) _ ?_⟩
    · rw [exactValue_mul, List.prod_cons, Int.cast_mul]
    · rw [exactValue_mul, ← permuted.prod_eq, List.prod_cons, Int.cast_mul]

/-- A quotient of integers is an integer if the divisors divide the dividend and the quotient is not
too wide. -/
theorem apply_div_eq_int_iff (a i : Int) (rest : List Int) :
    Arithmetic.div.apply ((a :: rest).map Number.int) = .ok (.int i) ↔
      rest.prod ≠ 0 ∧ i * rest.prod = a ∧ Number.bitLength i ≤ Number.maxBits := by
  have exact := Arithmetic.div.isExact_apply a rest
  by_cases zero : 0 ∈ rest
  · obtain ⟨cause, fault⟩ := exact.byZero rfl zero
    rw [fault, List.prod_eq_zero zero]
    simp
  · have notZero := List.prod_ne_zero zero
    constructor
    · intro result
      by_cases whole : ∃ j : Int, (j : ℚ) = exactValue .div a rest
      · obtain ⟨j, value⟩ := whole
        rw [exact.integer (fun _ => zero) j value] at result
        obtain ⟨rfl, narrow⟩ := eq_of_integerResult _ _ _ _ result
        rw [exactValue_div] at value
        exact ⟨notZero, (integer_eq_div_iff j a _ notZero).mp value, narrow⟩
      · obtain ⟨-, ⟨x, -, double⟩ | ⟨cause, fault⟩⟩ :=
          exact.fraction (fun _ => zero) (not_exists.mp whole)
        · rw [double] at result
          cases result
        · rw [fault] at result
          cases result
    · rintro ⟨-, whole, narrow⟩
      have value := (integer_eq_div_iff i a _ notZero).mpr whole
      rw [← exactValue_div] at value
      rw [exact.integer (fun _ => zero) i value, integerResult, if_pos narrow]

end Arithmetic

/-- Arithmetic of integers of any size is exact.  By a zero it fails; otherwise it results in its
exact value if that is an integer, however wide the values on the way, and in no integer if it is
none.  In any other order a sum or a product is the same.  A quotient is an integer just when the
divisors divide the dividend, within the limit on every result, which holds by itself when the
dividend keeps to it. -/
theorem integer_arithmetic_is_exact (op : Arithmetic) (a : Int) (rest : List Int) :
    op.IsExact a rest (op.apply ((a :: rest).map Number.int)) ∧
    (op = .add ∨ op = .mul →
      ∀ (b : Int) (others : List Int), (b :: others).Perm (a :: rest) →
        ∃ i : Int,
          op.apply ((a :: rest).map Number.int) =
            op.integerResult ((a :: rest).map Number.int) i ∧
          op.apply ((b :: others).map Number.int) =
            op.integerResult ((b :: others).map Number.int) i) ∧
    (op = .div →
      ((∃ i, op.apply ((a :: rest).map Number.int) = .ok (.int i)) ↔
        rest.prod ≠ 0 ∧ rest.prod ∣ a ∧ Number.bitLength (a / rest.prod) ≤ Number.maxBits) ∧
      (Number.bitLength a ≤ Number.maxBits →
        ((∃ i, op.apply ((a :: rest).map Number.int) = .ok (.int i)) ↔
          rest.prod ≠ 0 ∧ rest.prod ∣ a))) := by
  refine ⟨op.isExact_apply a rest, ?_, ?_⟩
  · intro commutes b others permuted
    exact op.apply_perm a b rest others commutes permuted
  · rintro rfl
    have divides : (∃ i, Arithmetic.div.apply ((a :: rest).map Number.int) = .ok (.int i)) ↔
        rest.prod ≠ 0 ∧ rest.prod ∣ a ∧ Number.bitLength (a / rest.prod) ≤ Number.maxBits := by
      simp only [Arithmetic.apply_div_eq_int_iff]
      constructor
      · rintro ⟨i, notZero, rfl, narrow⟩
        rw [Int.mul_ediv_cancel i notZero]
        exact ⟨notZero, Int.dvd_mul_left i _, narrow⟩
      · rintro ⟨notZero, whole, narrow⟩
        exact ⟨a / rest.prod, notZero, Int.ediv_mul_cancel whole, narrow⟩
    refine ⟨divides, ?_⟩
    intro narrow
    have quotient := Nat.le_trans (Number.bitLength_div_le a rest.prod) narrow
    rw [divides]
    exact ⟨fun ⟨notZero, whole, _⟩ => ⟨notZero, whole⟩,
      fun ⟨notZero, whole⟩ => ⟨notZero, whole, quotient⟩⟩

/-- Two divisors, the second of them negative. -/
theorem quotient_by_four_and_minus_three_is_exact :
    (0 : Int) ∉ [4, -3] ∧ ((-2 : Int) : ℚ) = Arithmetic.div.exactValue (24 : Int) [4, -3] ∧
      Arithmetic.div.apply [.int 24, .int 4, .int (-3)] = .ok (.int (-2)) := by
  have divisors : (0 : Int) ∉ [4, -3] := by decide
  have value : ((-2 : Int) : ℚ) = Arithmetic.div.exactValue (24 : Int) [4, -3] := by
    rw [Arithmetic.exactValue_div]
    exact (Arithmetic.integer_eq_div_iff (-2) 24 _ (by decide)).mpr (by decide)
  exact ⟨divisors, value,
    (integer_arithmetic_is_exact .div 24 [4, -3]).1.integer (fun _ => divisors) (-2) value⟩

end ParenCalc
