import ParenCalc.Operator.Apply
import ParenCalc.Proofs.Number.Rounding
/-!
# The order of doubles

Doubles are compared by one integer each, with the infinities put beyond all finite values.
Rounding keeps the order of exact values, and so do sums.  Hence time that is counted in doubles
does not run backwards: what was longer ago than some span is so at every later reading of the
clock.
-/
set_option autoImplicit false

namespace ParenCalc

namespace Number

theorem lt_iff (a b : Number) :
    a.lt b = true ↔ a.isNaN = false ∧ b.isNaN = false ∧
      (a.level < b.level ∨ a.level = b.level ∧ a.units < b.units) := by
  unfold lt order?
  cases left : a.isNaN with
  | true => simp
  | false =>
      cases right : b.isNaN with
      | true => simp
      | false => simp [Ordering.then_eq_lt, Int.compare_eq_lt]

theorem compare_greaterEq_iff (a b : Number) :
    Comparison.greaterEq.compare a b = true ↔
      a.isNaN = false ∧ b.isNaN = false ∧ a.lt b = false := by
  unfold Comparison.compare lt order?
  cases left : a.isNaN with
  | true => simp
  | false =>
      cases right : b.isNaN with
      | true => simp
      | false => simp [Comparison.holds]

end Number

namespace Binary64

/-! ## One integer for each double -/

def greatestPower : Nat := 2045

/-- The least magnitude past those of the finite doubles. -/
def bound : Nat := 0x20000000000000 * Nat.pow 2 greatestPower

/-- The value in units, an infinity at the bound. -/
def extent : Binary64 → Int
  | .infinite negative => if negative then -(bound : Int) else bound
  | x => x.units

theorem bound_pos : 0 < bound := by
  unfold bound
  generalize greatestPower = top
  exact Nat.mul_pos (by decide) (Nat.two_pow_pos top)

theorem scaled_lt_bound (significand power : Nat) (below : significand < 0x20000000000000)
    (low : power ≤ greatestPower) : significand * Nat.pow 2 power < bound := by
  unfold bound
  generalize greatestPower = top at low ⊢
  calc significand * 2 ^ power < 0x20000000000000 * 2 ^ power :=
        Nat.mul_lt_mul_of_pos_right below (Nat.two_pow_pos power)
    _ ≤ 0x20000000000000 * 2 ^ top :=
        Nat.mul_le_mul_left _ (Nat.pow_le_pow_right (by decide) low)

theorem magnitude_lt_bound (x : Binary64) : x.magnitude < bound := by
  cases x with
  | nan | infinite negative => exact bound_pos
  | finite negative significand power canonical =>
      exact scaled_lt_bound significand power canonical.significand_lt canonical.power_le

/-- A double that is a number is finite, with its value within the bound, or at the bound. -/
theorem extent_cases (x : Binary64) (number : x.isNaN = false) :
    (x.isFinite = true ∧ (Number.float x).level = 0 ∧ x.extent = x.units ∧
        -(bound : Int) < x.units ∧ x.units < bound) ∨
      (x = .infinite false ∧ (Number.float x).level = 1 ∧ x.extent = bound ∧ x.units = 0) ∨
      (x = .infinite true ∧ (Number.float x).level = -1 ∧ x.extent = -(bound : Int) ∧
        x.units = 0) := by
  cases x with
  | nan => simp [isNaN] at number
  | infinite negative =>
      cases negative with
      | false => exact .inr (.inl ⟨rfl, rfl, rfl, rfl⟩)
      | true => exact .inr (.inr ⟨rfl, rfl, rfl, rfl⟩)
  | finite negative significand power canonical =>
      have below := magnitude_lt_bound (.finite negative significand power canonical)
      refine .inl ⟨rfl, rfl, rfl, ?_, ?_⟩ <;>
      · unfold units
        split <;> omega

/-- The order of two doubles is that of their integers. -/
theorem lt_iff_extent (x y : Binary64) :
    Number.lt (.float x) (.float y) = true ↔
      x.isNaN = false ∧ y.isNaN = false ∧ x.extent < y.extent := by
  have positive := bound_pos
  rw [Number.lt_iff]
  show x.isNaN = false ∧ y.isNaN = false ∧ (_ ∨ _ ∧ x.units < y.units) ↔ _
  constructor
  · rintro ⟨left, right, order⟩
    refine ⟨left, right, ?_⟩
    rcases x.extent_cases left with ⟨-, first⟩ | ⟨-, first⟩ | ⟨-, first⟩ <;>
    rcases y.extent_cases right with ⟨-, second⟩ | ⟨-, second⟩ | ⟨-, second⟩ <;>
    omega
  · rintro ⟨left, right, order⟩
    refine ⟨left, right, ?_⟩
    rcases x.extent_cases left with ⟨-, first⟩ | ⟨-, first⟩ | ⟨-, first⟩ <;>
    rcases y.extent_cases right with ⟨-, second⟩ | ⟨-, second⟩ | ⟨-, second⟩ <;>
    omega

/-- A double at least zero is so by its integer. -/
theorem nonneg_iff_extent (x : Binary64) :
    Comparison.greaterEq.compare (.float x) (.int 0) = true ↔
      x.isNaN = false ∧ 0 ≤ x.extent := by
  have positive := bound_pos
  have zeroUnits : (Number.int 0).units = 0 := Int.zero_mul _
  have zeroLevel : (Number.int 0).level = 0 := rfl
  have zeroNumber : (Number.int 0).isNaN = false := rfl
  rw [Number.compare_greaterEq_iff, ← Bool.not_eq_true (Number.lt _ _), Number.lt_iff, zeroUnits,
    zeroLevel, zeroNumber]
  constructor
  · rintro ⟨number, -, order⟩
    have notBelow : ¬((Number.float x).level < 0 ∨ (Number.float x).level = 0 ∧ x.units < 0) :=
      fun below => order ⟨number, rfl, below⟩
    refine ⟨number, ?_⟩
    rcases x.extent_cases number with ⟨-, place⟩ | ⟨-, place⟩ | ⟨-, place⟩ <;> omega
  · rintro ⟨number, order⟩
    refine ⟨number, rfl, ?_⟩
    rintro ⟨-, -, below⟩
    change _ ∨ _ ∧ x.units < 0 at below
    rcases x.extent_cases number with ⟨-, place⟩ | ⟨-, place⟩ | ⟨-, place⟩ <;> omega

/-! ## Rounding keeps the order -/

theorem nearest_mono (a b den : Nat) (order : a ≤ b) : nearest a den ≤ nearest b den := by
  have quotients : a / den ≤ b / den := Nat.div_le_div_right order
  rcases Nat.lt_or_eq_of_le quotients with less | same
  · have upper := nearest_eq_or a den
    have lower := nearest_eq_or b den
    omega
  · have first := Nat.div_add_mod a den
    have second := Nat.div_add_mod b den
    have rests : a % den ≤ b % den := by
      rw [← same] at second
      omega
    unfold nearest
    dsimp only
    rw [same]
    split_ifs <;> omega

/-- The power of two that rounding takes out of a magnitude. -/
def stepOf (n : Nat) : Nat := n.log2 - 52

/-- A magnitude rounded to the bits of a significand. -/
def rounded (n : Nat) : Nat := nearest n (2 ^ stepOf n) * 2 ^ stepOf n

theorem nearest_stepOf_le (n : Nat) : nearest n (2 ^ stepOf n) ≤ 0x20000000000000 := by
  have bits : n < 2 ^ 53 * 2 ^ stepOf n := by
    rw [← Nat.pow_add]
    refine Nat.lt_of_lt_of_le Nat.lt_log2_self (Nat.pow_le_pow_right (by decide) ?_)
    unfold stepOf
    omega
  have quotient : n / 2 ^ stepOf n < 2 ^ 53 := by
    rwa [Nat.div_lt_iff_lt_mul (Nat.two_pow_pos _)]
  have near := nearest_eq_or n (2 ^ stepOf n)
  omega

theorem le_nearest_stepOf (n : Nat) (positive : 0 < stepOf n) :
    0x10000000000000 ≤ nearest n (2 ^ stepOf n) := by
  have nonzero : n ≠ 0 := by
    rintro rfl
    simp [stepOf] at positive
  have bits : 2 ^ 52 * 2 ^ stepOf n ≤ n := by
    rw [← Nat.pow_add, ← Nat.le_log2 nonzero]
    unfold stepOf at positive ⊢
    omega
  have quotient : 2 ^ 52 ≤ n / 2 ^ stepOf n := by
    rwa [Nat.le_div_iff_mul_le (Nat.two_pow_pos _)]
  have near := nearest_eq_or n (2 ^ stepOf n)
  omega

theorem stepOf_mono (a b : Nat) (order : a ≤ b) : stepOf a ≤ stepOf b := by
  by_cases zero : a = 0
  · subst zero
    simp [stepOf]
  · have logs : a.log2 ≤ b.log2 := by
      rw [Nat.le_log2 (by omega)]
      exact Nat.le_trans (Nat.log2_self_le zero) order
    unfold stepOf
    omega

theorem rounded_mono (a b : Nat) (order : a ≤ b) : rounded a ≤ rounded b := by
  rcases Nat.lt_or_eq_of_le (stepOf_mono a b order) with less | same
  · -- the smaller one is at most the least magnitude of the next step
    calc rounded a ≤ 0x20000000000000 * 2 ^ stepOf a :=
          Nat.mul_le_mul_right _ (nearest_stepOf_le a)
      _ = 0x10000000000000 * 2 ^ (stepOf a + 1) := by rw [Nat.pow_succ]; omega
      _ ≤ 0x10000000000000 * 2 ^ stepOf b :=
          Nat.mul_le_mul_left _ (Nat.pow_le_pow_right (by decide) less)
      _ ≤ rounded b := Nat.mul_le_mul_right _ (le_nearest_stepOf b (by omega))
  · unfold rounded
    rw [same]
    exact Nat.mul_le_mul_right _ (nearest_mono a b _ order)

theorem rounded_magnitude (x : Binary64) : rounded x.magnitude = x.magnitude := by
  cases x with
  | nan | infinite negative => exact (by decide : rounded 0 = 0)
  | finite negative significand power canonical =>
      have step : stepOf (significand * 2 ^ power) = power :=
        power_of_canonical significand power canonical
      show rounded (significand * 2 ^ power) = significand * 2 ^ power
      unfold rounded
      rw [step, nearest_of_exact _ _ (Nat.two_pow_pos power)]

def signed (negative : Bool) (n : Nat) : Int := if negative then -(n : Int) else n

theorem extent_of_canonical (negative : Bool) (significand power : Nat)
    (canonical : Canonical significand power) :
    (assemble negative significand power).extent =
      signed negative (min (significand * 2 ^ power) bound) := by
  have below : significand * 2 ^ power < bound :=
    magnitude_lt_bound (.finite negative significand power canonical)
  unfold assemble
  rw [dif_pos canonical, Nat.min_eq_left (Nat.le_of_lt below)]
  rfl

theorem extent_of_large (negative : Bool) (significand power : Nat) (high : greatestPower < power)
    (full : 0x10000000000000 ≤ significand) :
    (assemble negative significand power).extent =
      signed negative (min (significand * 2 ^ power) bound) := by
  have notCanonical : ¬Canonical significand power := fun canonical =>
    absurd canonical.power_le (Nat.not_le.mpr high)
  have past : bound ≤ significand * 2 ^ power :=
    calc bound = 0x10000000000000 * 2 ^ (greatestPower + 1) := by
          rw [Nat.pow_succ]
          unfold bound
          rw [Nat.pow_eq]
          omega
      _ ≤ significand * 2 ^ power := Nat.mul_le_mul full (Nat.pow_le_pow_right (by decide) high)
  unfold assemble
  rw [dif_neg notCanonical, Nat.min_eq_right past]
  rfl

theorem extent_roundUnits (negative : Bool) (n : Nat) :
    (roundUnits negative n 1).extent = signed negative (min (rounded n) bound) := by
  have below := nearest_stepOf_le n
  have form : roundUnits negative n 1 =
      if nearest n (2 ^ stepOf n) = 0x20000000000000 then
        assemble negative 0x10000000000000 (stepOf n + 1)
      else assemble negative (nearest n (2 ^ stepOf n)) (stepOf n) := by
    unfold roundUnits
    rw [Nat.div_one]
    simp only [Nat.one_mul]
    rfl
  rw [form]
  split
  · rename_i carry
    have same : rounded n = 0x10000000000000 * 2 ^ (stepOf n + 1) := by
      unfold rounded
      rw [carry, Nat.pow_succ]
      omega
    rw [same]
    by_cases high : greatestPower < stepOf n + 1
    · exact extent_of_large negative _ _ high (Nat.le_refl _)
    · exact extent_of_canonical negative _ _ ⟨by decide, Nat.not_lt.mp high, .inl (Nat.le_refl _)⟩
  · rename_i noCarry
    by_cases high : greatestPower < stepOf n
    · exact extent_of_large negative _ _ high (le_nearest_stepOf n (by omega))
    · refine extent_of_canonical negative _ _ ⟨by omega, Nat.not_lt.mp high, ?_⟩
      by_cases positive : 0 < stepOf n
      · exact .inl (le_nearest_stepOf n positive)
      · exact .inr (by omega)

/-! ## Sums keep the order -/

/-- An exact sum in units, rounded and held within the bound. -/
def roundedSum (sum : Int) : Int := signed (sum < 0) (min (rounded sum.natAbs) bound)

theorem roundedSum_of_neg (s : Int) (below : s < 0) :
    roundedSum s = -(min (rounded s.natAbs) bound : Nat) := by
  unfold roundedSum signed
  rw [decide_eq_true below, if_pos rfl]

theorem roundedSum_of_nonneg (s : Int) (nonneg : 0 ≤ s) :
    roundedSum s = (min (rounded s.natAbs) bound : Nat) := by
  unfold roundedSum signed
  rw [decide_eq_false (Int.not_lt.mpr nonneg), if_neg Bool.false_ne_true]

theorem roundedSum_mono (s t : Int) (order : s ≤ t) : roundedSum s ≤ roundedSum t := by
  rcases Int.lt_or_le t 0 with below | nonneg
  · have magnitudes := rounded_mono t.natAbs s.natAbs (by omega)
    rw [roundedSum_of_neg t below, roundedSum_of_neg s (by omega)]
    omega
  · rw [roundedSum_of_nonneg t nonneg]
    rcases Int.lt_or_le s 0 with less | notLess
    · rw [roundedSum_of_neg s less]
      omega
    · have magnitudes := rounded_mono s.natAbs t.natAbs (by omega)
      rw [roundedSum_of_nonneg s notLess]
      omega

theorem roundedSum_units (x : Binary64) : roundedSum x.units = x.units := by
  have magnitude : x.units.natAbs = x.magnitude := by
    unfold units
    split <;> simp
  have kept : min (rounded x.units.natAbs) bound = x.units.natAbs := by
    rw [magnitude, rounded_magnitude, Nat.min_eq_left (Nat.le_of_lt (magnitude_lt_bound x))]
  rcases Int.lt_or_le x.units 0 with below | nonneg
  · rw [roundedSum_of_neg _ below, kept]
    omega
  · rw [roundedSum_of_nonneg _ nonneg, kept]
    omega

theorem add_of_finite (x y : Binary64) (left : x.isFinite = true) (right : y.isFinite = true) :
    x.add y = if x.units + y.units = 0 then zero (x.isNegative && y.isNegative)
      else roundUnits (x.units + y.units < 0) (x.units + y.units).natAbs 1 := by
  cases x with
  | nan | infinite negative => simp [isFinite] at left
  | finite negative significand power canonical =>
      cases y with
      | nan | infinite negative => simp [isFinite] at right
      | finite negative significand power canonical => rfl

theorem isNaN_add_of_finite (x y : Binary64) (left : x.isFinite = true)
    (right : y.isFinite = true) : (x.add y).isNaN = false := by
  rw [add_of_finite x y left right]
  split
  · rfl
  · exact isNaN_roundUnits _ _ _

theorem extent_add_of_finite (x y : Binary64) (left : x.isFinite = true)
    (right : y.isFinite = true) : (x.add y).extent = roundedSum (x.units + y.units) := by
  rw [add_of_finite x y left right]
  split
  · rename_i nothing
    rw [nothing]
    have none : roundedSum 0 = 0 := by simp [roundedSum, signed, rounded, nearest]
    rw [none]
    cases x.isNegative && y.isNegative <;> rfl
  · exact extent_roundUnits _ _

theorem extent_le_bound (x : Binary64) (number : x.isNaN = false) : x.extent ≤ bound := by
  rcases x.extent_cases number with ⟨-, place⟩ | ⟨-, place⟩ | ⟨-, place⟩ <;> omega

/-- A number other than the negative infinity.  Among these every sum is a number. -/
def isUpper : Binary64 → Bool
  | .nan => false
  | .infinite negative => !negative
  | .finite .. => true

theorem isUpper_iff (x : Binary64) :
    x.isUpper = true ↔ x.isNaN = false ∧ -(bound : Int) < x.extent := by
  have positive := bound_pos
  cases x with
  | nan => exact ⟨Bool.noConfusion, fun above => Bool.noConfusion above.1⟩
  | infinite negative =>
      cases negative with
      | false =>
          refine ⟨fun _ => ⟨rfl, ?_⟩, fun _ => rfl⟩
          show -(bound : Int) < bound
          omega
      | true => exact ⟨Bool.noConfusion, fun above => absurd above.2 (Int.lt_irrefl _)⟩
  | finite negative significand power canonical =>
      refine ⟨fun _ => ⟨rfl, ?_⟩, fun _ => rfl⟩
      rcases extent_cases (.finite negative significand power canonical) rfl with
        ⟨-, -, same, above, -⟩ | ⟨endless, -⟩ | ⟨endless, -⟩
      · rwa [same]
      · cases endless
      · cases endless

theorem upper_cases (x : Binary64) (upper : x.isUpper = true) :
    x.isFinite = true ∨ x = .infinite false := by
  cases x with
  | nan => simp [isUpper] at upper
  | infinite negative => cases negative <;> simp [isUpper] at upper ⊢
  | finite negative significand power canonical => exact .inl rfl

theorem isUpper_of_add (x y : Binary64) (upper : (x.add y).isUpper = true) :
    x.isUpper = true ∧ y.isUpper = true := by
  cases x with
  | nan => simp [add, isUpper] at upper
  | infinite negative =>
      cases y with
      | nan => simp [add, isUpper] at upper
      | infinite other => cases negative <;> cases other <;> simp [add, isUpper] at upper ⊢
      | finite other significand power canonical =>
          cases negative <;> simp [add, isUpper] at upper ⊢
  | finite negative significand power canonical =>
      cases y with
      | nan => simp [add, isUpper] at upper
      | infinite other => cases other <;> simp [add, isUpper] at upper ⊢
      | finite other significand power canonical => exact ⟨rfl, rfl⟩

theorem add_of_endless (x y : Binary64) (left : x.isUpper = true) (right : y.isUpper = true)
    (endless : x = .infinite false ∨ y = .infinite false) : x.add y = .infinite false := by
  cases x with
  | nan => simp [isUpper] at left
  | infinite negative | finite negative significand power canonical =>
      cases y with
      | nan => simp [isUpper] at right
      | infinite other | finite other significand power canonical =>
          simp_all [isUpper, add]

theorem isNaN_add (x y : Binary64) (left : x.isUpper = true) (right : y.isUpper = true) :
    (x.add y).isNaN = false := by
  rcases x.upper_cases left with finite | endless
  · rcases y.upper_cases right with also | endless
    · exact isNaN_add_of_finite x y finite also
    · rw [add_of_endless x y left right (.inr endless)]
      rfl
  · rw [add_of_endless x y left right (.inl endless)]
    rfl

theorem extent_of_finite (x : Binary64) (finite : x.isFinite = true) :
    x.extent = x.units ∧ x.extent < bound := by
  rcases x.extent_cases (isNaN_of_isFinite x finite) with
    ⟨-, -, same, -, below⟩ | ⟨rfl, -⟩ | ⟨rfl, -⟩
  · exact ⟨same, by omega⟩
  · simp [isFinite] at finite
  · simp [isFinite] at finite

theorem isFinite_of_extent_le (x y : Binary64) (upper : x.isUpper = true)
    (finite : y.isFinite = true) (order : x.extent ≤ y.extent) : x.isFinite = true := by
  rcases x.upper_cases upper with also | rfl
  · exact also
  · have below := (extent_of_finite y finite).2
    have top : (infinite false).extent = bound := rfl
    omega

theorem extent_add_mono (x x' y y' : Binary64) (left : x.isUpper = true) (right : y.isUpper = true)
    (left' : x'.isUpper = true) (right' : y'.isUpper = true) (first : x.extent ≤ x'.extent)
    (second : y.extent ≤ y'.extent) : (x.add y).extent ≤ (x'.add y').extent := by
  -- an infinite sum is the greatest; below a finite one both terms are finite
  by_cases endless : x' = .infinite false ∨ y' = .infinite false
  · rw [add_of_endless x' y' left' right' endless]
    exact extent_le_bound _ (isNaN_add x y left right)
  · rw [not_or] at endless
    have xs' := (x'.upper_cases left').resolve_right endless.1
    have ys' := (y'.upper_cases right').resolve_right endless.2
    have xs := isFinite_of_extent_le x x' left xs' first
    have ys := isFinite_of_extent_le y y' right ys' second
    rw [(extent_of_finite x xs).1, (extent_of_finite x' xs').1] at first
    rw [(extent_of_finite y ys).1, (extent_of_finite y' ys').1] at second
    rw [extent_add_of_finite x y xs ys, extent_add_of_finite x' y' xs' ys']
    exact roundedSum_mono _ _ (by omega)

theorem extent_add_zero (x : Binary64) (upper : x.isUpper = true) :
    (x.add (zero false)).extent = x.extent := by
  have none : (zero false).units = 0 := by decide
  rcases x.upper_cases upper with finite | rfl
  · rw [extent_add_of_finite x _ finite rfl, none, Int.add_zero, roundedSum_units,
      (extent_of_finite x finite).1]
  · rfl

/-- A later time is no less. -/
theorem isUpper_add (x step : Binary64) (upper : x.isUpper = true) (number : step.isNaN = false)
    (nonneg : 0 ≤ step.extent) : (x.add step).isUpper = true ∧ x.extent ≤ (x.add step).extent := by
  have positive := bound_pos
  have steps : step.isUpper = true := (isUpper_iff step).mpr ⟨number, by omega⟩
  have least : (zero false).extent ≤ step.extent := nonneg
  have later := extent_add_mono x x (zero false) step upper rfl upper steps (Int.le_refl _) least
  rw [extent_add_zero x upper] at later
  have above := ((isUpper_iff x).mp upper).2
  exact ⟨(isUpper_iff _).mpr ⟨isNaN_add x step upper steps, by omega⟩, later⟩

/-- What is past some point stays past it: at a later time the sum with the same term is past the
point too. -/
theorem lt_add_of_later (point clock step term : Binary64) (number : step.isNaN = false)
    (nonneg : 0 ≤ step.extent)
    (past : Number.lt (.float point) (.float (clock.add term)) = true) :
    Number.lt (.float point) (.float ((clock.add step).add term)) = true := by
  rw [lt_iff_extent] at past ⊢
  obtain ⟨pointNumber, sumNumber, order⟩ := past
  have least : -(bound : Int) ≤ point.extent := by
    rcases point.extent_cases pointNumber with ⟨-, place⟩ | ⟨-, place⟩ | ⟨-, place⟩ <;> omega
  have sumUpper : (clock.add term).isUpper = true := (isUpper_iff _).mpr ⟨sumNumber, by omega⟩
  obtain ⟨upper, terms⟩ := isUpper_of_add clock term sumUpper
  obtain ⟨later, above⟩ := isUpper_add clock step upper number nonneg
  have kept := extent_add_mono clock (clock.add step) term term upper terms later terms above
    (Int.le_refl _)
  exact ⟨pointNumber, isNaN_add _ term later terms, by omega⟩

end Binary64

end ParenCalc
