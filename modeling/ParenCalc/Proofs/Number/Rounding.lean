import Mathlib.Algebra.Group.Nat.Defs
import Mathlib.Tactic.SplitIfs
import ParenCalc.Number.Basic
import ParenCalc.Number.Shortest
/-!
# Rounding

A quotient of integers rounds by its value alone, and a double rounds to itself.  From this follow
two laws of decimal fractions: the bound on their exponents never shows, and moving zeros between
the coefficient and the exponent changes nothing.  The decimal that a double is written as reads
back as the same double, and no number but zero becomes a zero double.
-/
set_option autoImplicit false

namespace ParenCalc

namespace Binary64

/-! ## The nearest integer -/

theorem nearest_mul (num den k : Nat) (positive : 0 < k) :
    nearest (num * k) (den * k) = nearest num den := by
  have below : num * k / (den * k) = num / den := Nat.mul_div_mul_right num den positive
  have rest : num * k % (den * k) = num % den * k := Nat.mul_mod_mul_right k num den
  have less : 2 * (num % den * k) < den * k ↔ 2 * (num % den) < den := by
    rw [← Nat.mul_assoc]
    exact Nat.mul_lt_mul_right positive
  have more : 2 * (num % den * k) > den * k ↔ 2 * (num % den) > den := by
    rw [← Nat.mul_assoc]
    exact Nat.mul_lt_mul_right positive
  simp only [nearest, below, rest, less, more]

theorem nearest_of_exact (n den : Nat) (positive : 0 < den) : nearest (n * den) den = n := by
  have below : n * den / den = n := Nat.mul_div_cancel n positive
  have rest : n * den % den = 0 := Nat.mul_mod_left n den
  simp only [nearest, below, rest]
  rw [if_pos (by omega)]

theorem nearest_of_small (num den : Nat) (small : 2 * num < den) : nearest num den = 0 := by
  have below : num / den = 0 := Nat.div_eq_of_lt (by omega)
  have rest : num % den = num := Nat.mod_eq_of_lt (by omega)
  simp only [nearest, below, rest]
  rw [if_pos small]

theorem nearest_eq_or (num den : Nat) :
    nearest num den = num / den ∨ nearest num den = num / den + 1 := by
  unfold nearest
  dsimp only
  split_ifs <;> simp

/-! ## Rounding to a double -/

theorem roundUnits_mul (negative : Bool) (num den k : Nat) (positive : 0 < k) :
    roundUnits negative (num * k) (den * k) = roundUnits negative num den := by
  have quotient : num * k / (den * k) = num / den := Nat.mul_div_mul_right num den positive
  simp only [roundUnits, quotient, Nat.mul_right_comm den k, nearest_mul _ _ k positive]

/-- The power of two that rounding takes out of a canonical magnitude is its own. -/
theorem power_of_canonical (significand power : Nat) (canonical : Canonical significand power) :
    (significand * 2 ^ power).log2 - 52 = power := by
  have below : significand < 2 ^ 53 := canonical.significand_lt
  rcases canonical.full with full | least
  · have positive := Nat.two_pow_pos power
    have bits : (significand * 2 ^ power).log2 = 52 + power := by
      rw [Nat.log2_eq_iff (Nat.ne_of_gt (Nat.mul_pos (by omega) positive))]
      constructor
      · rw [Nat.pow_add]
        exact Nat.mul_le_mul_right (2 ^ power) full
      · rw [Nat.add_right_comm, Nat.pow_add]
        exact Nat.mul_lt_mul_of_pos_right below positive
    omega
  · subst least
    rw [Nat.pow_zero, Nat.mul_one]
    by_cases zero : significand = 0
    · simp [zero]
    · have bits : significand.log2 < 53 := (Nat.log2_lt zero).mpr below
      omega

theorem roundUnits_of_canonical (negative : Bool) (significand power den : Nat)
    (canonical : Canonical significand power) (positive : 0 < den) :
    roundUnits negative (significand * 2 ^ power * den) den =
      .finite negative significand power canonical := by
  have quotient : significand * 2 ^ power * den / den = significand * 2 ^ power :=
    Nat.mul_div_cancel _ positive
  have exact : nearest (significand * 2 ^ power * den) (den * 2 ^ power) = significand := by
    rw [Nat.mul_assoc, Nat.mul_comm (2 ^ power)]
    exact nearest_of_exact _ _ (Nat.mul_pos positive (Nat.two_pow_pos power))
  have below := canonical.significand_lt
  simp only [roundUnits, quotient, power_of_canonical significand power canonical, Nat.pow_eq, exact,
    assemble, dif_pos canonical]
  rw [if_neg (by omega)]

theorem roundUnits_of_small (negative : Bool) (num den : Nat) (small : 2 * num < den) :
    roundUnits negative num den = zero negative := by
  have quotient : num / den = 0 := Nat.div_eq_of_lt (by omega)
  simp only [roundUnits, quotient, Nat.log2_zero, Nat.zero_sub, Nat.pow_eq, Nat.pow_zero,
    Nat.mul_one, nearest_of_small num den small]
  rfl

theorem roundUnits_of_large (negative : Bool) (num den : Nat) (large : 2098 < (num / den).log2) :
    roundUnits negative num den = .infinite negative := by
  have none (significand power : Nat) (high : 2045 < power) :
      assemble negative significand power = .infinite negative := by
    unfold assemble
    rw [dif_neg fun canonical => absurd canonical.power_le (by omega)]
  unfold roundUnits
  dsimp only
  split
  · exact none _ _ (by omega)
  · exact none _ _ (by omega)

theorem roundUnits_magnitude (x : Binary64) (finite : x.isFinite = true) (den : Nat)
    (positive : 0 < den) : roundUnits x.isNegative (x.magnitude * den) den = x := by
  cases x with
  | nan => simp [isFinite] at finite
  | infinite negative => simp [isFinite] at finite
  | finite negative significand power canonical =>
      exact roundUnits_of_canonical negative significand power den canonical positive

theorem magnitude_assemble (negative : Bool) (significand power : Nat)
    (finite : (assemble negative significand power).isFinite = true) :
    (assemble negative significand power).magnitude = significand * 2 ^ power := by
  unfold assemble at finite ⊢
  split
  · rfl
  · rename_i notCanonical
    rw [dif_neg notCanonical] at finite
    simp [isFinite] at finite

theorem isNaN_of_isFinite (x : Binary64) (finite : x.isFinite = true) : x.isNaN = false := by
  cases x with
  | nan => simp [isFinite] at finite
  | infinite negative => rfl
  | finite negative significand power canonical => rfl

theorem isNaN_assemble (negative : Bool) (significand power : Nat) :
    (assemble negative significand power).isNaN = false := by
  unfold assemble
  split <;> rfl

theorem isNaN_roundUnits (negative : Bool) (num den : Nat) :
    (roundUnits negative num den).isNaN = false := by
  unfold roundUnits
  dsimp only
  split <;> exact isNaN_assemble _ _ _

/-- Rounding takes nothing of a unit or more to zero. -/
theorem magnitude_roundUnits_ne_zero (negative : Bool) (num den : Nat) (positive : 0 < den)
    (large : den ≤ num) (finite : (roundUnits negative num den).isFinite = true) :
    (roundUnits negative num den).magnitude ≠ 0 := by
  have quotient : num / den ≠ 0 := by
    have := Nat.div_pos large positive
    omega
  have kept : 2 ^ ((num / den).log2 - 52) ≤ num / den :=
    calc 2 ^ ((num / den).log2 - 52) ≤ 2 ^ (num / den).log2 :=
          Nat.pow_le_pow_right (by decide) (by omega)
      _ ≤ num / den := Nat.log2_self_le quotient
  have step : 0 < den * 2 ^ ((num / den).log2 - 52) :=
    Nat.mul_pos positive (Nat.two_pow_pos _)
  have below : 0 < num / (den * 2 ^ ((num / den).log2 - 52)) := by
    apply Nat.div_pos _ step
    exact Nat.le_trans (Nat.mul_le_mul_left den kept) (Nat.mul_div_le num den)
  have rounded := nearest_eq_or num (den * 2 ^ ((num / den).log2 - 52))
  have significand : 0 < nearest num (den * 2 ^ ((num / den).log2 - 52)) := by omega
  unfold roundUnits at finite ⊢
  simp only [Nat.pow_eq] at finite ⊢
  split
  · rename_i carry
    rw [if_pos carry] at finite
    rw [magnitude_assemble _ _ _ finite]
    exact Nat.mul_ne_zero (by decide) (Nat.ne_of_gt (Nat.two_pow_pos _))
  · rename_i noCarry
    rw [if_neg noCarry] at finite
    rw [magnitude_assemble _ _ _ finite]
    exact Nat.mul_ne_zero (Nat.ne_of_gt significand) (Nat.ne_of_gt (Nat.two_pow_pos _))

end Binary64

namespace Decimal

open Binary64 (roundUnits one)

/-! ## The value of a decimal -/

theorem one_pos : 0 < one := by
  unfold one
  generalize 1074 = places
  exact Nat.two_pow_pos places

theorem two_pow_mul_one (n : Nat) : 2 ^ n * one = 2 ^ (n + 1074) := by
  unfold one
  generalize 1074 = places
  rw [Nat.pow_eq, Nat.pow_add]

theorem nearestBinary64_of_nonneg (negative : Bool) (coefficient : Nat) (exponent : Int)
    (nonneg : 0 ≤ exponent) :
    nearestBinary64 negative coefficient exponent =
      roundUnits negative (coefficient * 10 ^ exponent.toNat * one) 1 := by
  simp [nearestBinary64, nonneg, Binary64.ofRatio]

theorem nearestBinary64_of_neg (negative : Bool) (coefficient : Nat) (exponent : Int)
    (below : exponent < 0) :
    nearestBinary64 negative coefficient exponent =
      roundUnits negative (coefficient * one) (10 ^ (-exponent).toNat) := by
  simp [nearestBinary64, Int.not_le.mpr below, Binary64.ofRatio]

theorem nearestBinary64_zero (negative : Bool) (exponent : Int) :
    nearestBinary64 negative 0 exponent = Binary64.zero negative := by
  rcases Int.lt_or_le exponent 0 with below | nonneg
  · have positive : 0 < 10 ^ (-exponent).toNat := Nat.pow_pos (by decide)
    rw [nearestBinary64_of_neg negative 0 exponent below, Nat.zero_mul]
    exact Binary64.roundUnits_of_small negative 0 _ (by omega)
  · rw [nearestBinary64_of_nonneg negative 0 exponent nonneg, Nat.zero_mul, Nat.zero_mul]
    exact Binary64.roundUnits_of_small negative 0 1 (by omega)

theorem nearestBinary64_step (negative : Bool) (coefficient : Nat) (exponent : Int) :
    nearestBinary64 negative (coefficient * 10) (exponent - 1) =
      nearestBinary64 negative coefficient exponent := by
  rcases Int.lt_or_le 0 exponent with above | low
  · have split : exponent.toNat = (exponent - 1).toNat + 1 := by omega
    rw [nearestBinary64_of_nonneg _ _ _ (by omega), nearestBinary64_of_nonneg _ _ _ (by omega),
      split, Nat.pow_succ', Nat.mul_assoc coefficient]
  · have split : (-(exponent - 1)).toNat = (-exponent).toNat + 1 := by omega
    rw [nearestBinary64_of_neg _ _ _ (by omega), split, Nat.pow_succ,
      Nat.mul_right_comm coefficient, Binary64.roundUnits_mul _ _ _ 10 (by decide)]
    rcases Int.lt_or_eq_of_le low with below | zero
    · rw [nearestBinary64_of_neg _ _ _ below]
    · subst zero
      rw [nearestBinary64_of_nonneg _ _ _ (Int.le_refl 0)]
      simp

theorem nearestBinary64_shift (negative : Bool) (coefficient zeros : Nat) (exponent : Int) :
    nearestBinary64 negative (coefficient * 10 ^ zeros) (exponent - zeros) =
      nearestBinary64 negative coefficient exponent := by
  induction zeros with
  | zero => simp
  | succ zeros ih =>
      have split : exponent - (zeros + 1 : Nat) = exponent - zeros - 1 := by omega
      rw [split, Nat.pow_succ, ← Nat.mul_assoc, nearestBinary64_step, ih]

/-! ## The bound on exponents -/

theorem two_pow_le_ten_pow (n : Nat) : 2 ^ (3 * n) ≤ 10 ^ n := by
  rw [Nat.pow_mul]
  exact Nat.pow_le_pow_left (by decide) n

/-- Past `10^400` every double other than zero is infinite. -/
theorem nearestBinary64_of_large (negative : Bool) (coefficient : Nat) (exponent : Int)
    (positive : 0 < coefficient) (large : 400 ≤ exponent) :
    nearestBinary64 negative coefficient exponent = .infinite negative := by
  have power : 2 ^ (3 * exponent.toNat) ≤ coefficient * 10 ^ exponent.toNat :=
    Nat.le_trans (two_pow_le_ten_pow _) (Nat.le_mul_of_pos_left _ positive)
  have magnitude : 2 ^ (3 * exponent.toNat + 1074) ≤ coefficient * 10 ^ exponent.toNat * one := by
    rw [← two_pow_mul_one]
    exact Nat.mul_le_mul_right one power
  have nonzero := Nat.ne_of_gt (Nat.lt_of_lt_of_le (Nat.two_pow_pos _) magnitude)
  have bits := (Nat.le_log2 nonzero).mpr magnitude
  rw [nearestBinary64_of_nonneg _ _ _ (by omega)]
  refine Binary64.roundUnits_of_large _ _ _ ?_
  rw [Nat.div_one]
  omega

/-- An exponent that is below `-400` by more than the coefficient has bits leaves nothing. -/
theorem nearestBinary64_of_small (negative : Bool) (coefficient : Nat) (exponent : Int)
    (small : exponent ≤ -(coefficient.log2 + 401 : Nat)) :
    nearestBinary64 negative coefficient exponent = Binary64.zero negative := by
  have bits : coefficient < 2 ^ (coefficient.log2 + 1) := Nat.lt_log2_self
  have power : 2 ^ (3 * (coefficient.log2 + 401)) ≤ 10 ^ (-exponent).toNat :=
    Nat.le_trans (two_pow_le_ten_pow _) (Nat.pow_le_pow_right (by decide) (by omega))
  have magnitude : 2 * (coefficient * one) < 2 ^ (coefficient.log2 + 1 + 1074 + 1) := by
    rw [Nat.pow_succ, Nat.mul_comm 2, ← two_pow_mul_one]
    exact Nat.mul_lt_mul_of_pos_right (Nat.mul_lt_mul_of_pos_right bits one_pos) (by decide)
  have order : 2 ^ (coefficient.log2 + 1 + 1074 + 1) ≤ 2 ^ (3 * (coefficient.log2 + 401)) :=
    Nat.pow_le_pow_right (by decide) (by omega)
  rw [nearestBinary64_of_neg _ _ _ (by omega)]
  exact Binary64.roundUnits_of_small _ _ _ (by omega)

/-- The bound on the exponent never shows in the double. -/
theorem toBinary64_eq_nearestBinary64 (d : Decimal) :
    d.toBinary64 = nearestBinary64 d.negative d.coefficient d.exponent := by
  by_cases zero : d.coefficient = 0
  · rw [toBinary64, zero, nearestBinary64_zero, nearestBinary64_zero]
  · have positive : 0 < d.coefficient := by omega
    rcases Int.lt_or_le 400 d.exponent with large | notLarge
    · have bounded : d.boundedExponent = 400 := by
        unfold boundedExponent
        omega
      rw [toBinary64, bounded, nearestBinary64_of_large _ _ _ positive (Int.le_refl 400),
        nearestBinary64_of_large _ _ _ positive (by omega)]
    · rcases Int.lt_or_le d.exponent (-(d.coefficient.log2 + 401 : Nat)) with small | notSmall
      · have bounded : d.boundedExponent = -(d.coefficient.log2 + 401 : Nat) := by
          unfold boundedExponent
          omega
        rw [toBinary64, bounded, nearestBinary64_of_small _ _ _ (Int.le_refl _),
          nearestBinary64_of_small _ _ _ (by omega)]
      · have bounded : d.boundedExponent = d.exponent := by
          unfold boundedExponent
          omega
        rw [toBinary64, bounded]

theorem toBinary64_shift (negative : Bool) (coefficient zeros : Nat) (exponent : Int) :
    toBinary64 ⟨negative, coefficient * 10 ^ zeros, exponent - zeros⟩ =
      toBinary64 ⟨negative, coefficient, exponent⟩ := by
  rw [toBinary64_eq_nearestBinary64, toBinary64_eq_nearestBinary64]
  exact nearestBinary64_shift negative coefficient zeros exponent

theorem toBinary64_zero (negative : Bool) (exponent : Int) :
    toBinary64 ⟨negative, 0, exponent⟩ = Binary64.zero negative := by
  rw [toBinary64_eq_nearestBinary64]
  exact nearestBinary64_zero negative exponent

/-- The exact value of a finite double reads back: its units of `2^-n` are so many times `5^n` units
of `10^-n`. -/
theorem toBinary64_ofBinary64 (x : Binary64) (finite : x.isFinite = true) :
    (ofBinary64 x).toBinary64 = x := by
  have below : (ofBinary64 x).exponent < 0 := Int.negSucc_lt_zero 1073
  rw [toBinary64_eq_nearestBinary64, nearestBinary64_of_neg _ _ _ below]
  have places : (-(-1074 : Int)).toNat = 1074 := rfl
  simp only [ofBinary64, places]
  unfold one
  generalize 1074 = n
  have coefficient : x.magnitude * Nat.pow 5 n * Nat.pow 2 n = x.magnitude * 10 ^ n := by
    rw [Nat.mul_assoc, Nat.pow_eq, Nat.pow_eq, ← Nat.mul_pow]
  rw [coefficient]
  exact Binary64.roundUnits_magnitude x finite (10 ^ n) (Nat.pow_pos (by decide))

end Decimal

namespace Binary64

/-! ## The shortest decimal -/

theorem readsBack_iff (x : Binary64) (coefficient : Nat) (exponent : Int) :
    x.readsBack coefficient exponent = true ↔
      (Decimal.mk x.isNegative coefficient exponent).toBinary64 = x := by
  simp [readsBack]

/-- Whatever is chosen on a grid reads back: of two neighbours that both do, the nearer one is one
of them. -/
theorem onGrid?_readsBack (x : Binary64) (exponent : Int) (d : Decimal)
    (chosen : x.onGrid? exponent = some d) : d.toBinary64 = x ∧ d.negative = x.isNegative := by
  unfold onGrid? at chosen
  dsimp only at chosen
  obtain ⟨coefficient, better, rfl⟩ := Option.map_eq_some_iff.mp chosen
  refine ⟨?_, rfl⟩
  rw [← readsBack_iff]
  split_ifs at better with below above above
  · rcases nearest_eq_or (x.stepsOf exponent).1 (x.stepsOf exponent).2 with low | high
    · rwa [← Option.some.inj better, low]
    · rwa [← Option.some.inj better, high]
  · rwa [← Option.some.inj better]
  · rwa [← Option.some.inj better]

theorem shortest_readsBack (x : Binary64) (finite : x.isFinite = true) :
    x.shortest.toBinary64 = x ∧ x.shortest.negative = x.isNegative := by
  unfold shortest
  dsimp only
  split
  · rename_i d found
    obtain ⟨exponent, -, chosen⟩ := List.exists_of_findSome?_eq_some found
    exact onGrid?_readsBack x exponent d chosen
  · exact ⟨Decimal.toBinary64_ofBinary64 x finite, rfl⟩

end Binary64

namespace Number

/-! ## Zero -/

theorem isZero_iff_units (a : Number) (number : a.isNaN = false) (finite : a.level = 0) :
    a.isZero = true ↔ a.units = 0 := by
  have zeroUnits : (Number.int 0).units = 0 := Int.zero_mul _
  have zeroLevel : (Number.int 0).level = 0 := rfl
  have zeroNumber : (Number.int 0).isNaN = false := rfl
  unfold isZero same order?
  rw [number, zeroNumber, finite, zeroLevel, zeroUnits]
  generalize a.units = n
  simp

theorem isZero_int (i : Int) : (Number.int i).isZero = true ↔ i = 0 := by
  have positive : (Binary64.one : Int) ≠ 0 := Int.natCast_ne_zero.mpr (Nat.ne_of_gt Decimal.one_pos)
  rw [isZero_iff_units (.int i) rfl rfl]
  show i * (Binary64.one : Int) = 0 ↔ i = 0
  rw [Int.mul_eq_zero]
  exact or_iff_left positive

theorem magnitude_of_isZero (x : Binary64) (finite : x.isFinite = true)
    (zero : (Number.float x).isZero = true) : x.magnitude = 0 := by
  cases x with
  | nan => simp [Binary64.isFinite] at finite
  | infinite negative => simp [Binary64.isFinite] at finite
  | finite negative significand power canonical =>
      rw [isZero_iff_units _ rfl rfl] at zero
      change Binary64.units _ = 0 at zero
      unfold Binary64.units at zero
      split at zero
      · omega
      · omega

/-- A number other than zero is no zero as a double either, so no double is divided by zero. -/
theorem isZero_of_toBinary64? (b : Number) (x : Binary64) (converted : b.toBinary64? = some x)
    (zero : (Number.float x).isZero = true) : b.isZero = true := by
  cases b with
  | float y => rwa [Option.some.inj converted]
  | int i =>
      simp only [toBinary64?] at converted
      split at converted
      · rename_i finite
        rw [← Option.some.inj converted] at zero
        rw [isZero_int]
        apply Classical.byContradiction
        intro notZero
        have large : 1 ≤ i.natAbs * Binary64.one := Nat.mul_pos (by omega) Decimal.one_pos
        exact Binary64.magnitude_roundUnits_ne_zero _ _ 1 (by decide) large finite
          (magnitude_of_isZero _ finite zero)
      · simp at converted

end Number

end ParenCalc
