import ParenCalc.Datum.Atom
import ParenCalc.Proofs.Number.Layout
import ParenCalc.Proofs.Number.Rounding
/-!
# Literals read back

The literal of an admissible number is one atom, and that atom is the number again: an integer as
the same integer and a double as the same double.
-/
set_option autoImplicit false

namespace ParenCalc

open Digits (Valid text value)

namespace Numeral

/-! ## Signs -/

def withSign (negative : Bool) (t : Text) : Text :=
  if negative then CodePoint.ofChar '-' :: t else t

theorem ne_of_isDigit (c mark : CodePoint) (digit : c.isDigit = true)
    (noDigit : mark.isDigit = false) : c ≠ mark := by
  intro same
  rw [same, noDigit] at digit
  exact Bool.false_ne_true digit

theorem signed_withSign (negative : Bool) (digits : List Nat) (valid : Valid digits)
    (nonempty : digits ≠ []) (rest : Text) :
    signed (withSign negative (text digits ++ rest)) = (negative, text digits ++ rest) := by
  cases negative with
  | true => simp [withSign, signed]
  | false =>
      cases digits with
      | nil => exact absurd rfl nonempty
      | cons d digits =>
          have digit := Digits.isDigit_ofDigit d (valid d (List.mem_cons_self ..))
          have noMinus := ne_of_isDigit _ (CodePoint.ofChar '-') digit (by decide)
          have noPlus := ne_of_isDigit _ (CodePoint.ofChar '+') digit (by decide)
          simp [withSign, signed, text, noMinus, noPlus]

theorem looksNumeric_withSign (negative : Bool) (digits : List Nat) (valid : Valid digits)
    (nonempty : digits ≠ []) (rest : Text) :
    Text.looksNumeric (withSign negative (text digits ++ rest)) = true := by
  unfold Text.looksNumeric
  rw [signed_withSign negative digits valid nonempty rest]
  cases digits with
  | nil => exact absurd rfl nonempty
  | cons d digits =>
      have digit := Digits.isDigit_ofDigit d (valid d (List.mem_cons_self ..))
      simp [text, digit]

/-! ## Integers -/

theorem integer?_text (negative : Bool) (digits : List Nat) (valid : Valid digits)
    (nonempty : digits ≠ []) :
    integer? (withSign negative (text digits)) =
      some (if negative then -(value digits : Int) else value digits) := by
  have sign := signed_withSign negative digits valid nonempty []
  have allDigits : (text digits).all CodePoint.isDigit = true :=
    List.all_eq_true.mpr (Digits.isDigit_of_mem_text digits valid)
  rw [List.append_nil] at sign
  simp only [integer?, sign, Digits.ofText_text digits valid]
  rw [if_pos ⟨fun none => nonempty ((Digits.text_eq_nil_iff digits).mp none), allDigits⟩]

theorem ofInt_eq_withSign (i : Int) :
    Text.ofInt i = withSign (i < 0) (text (Digits.ofNat i.natAbs)) := by
  by_cases below : i < 0
  · simp [Text.ofInt, withSign, Text.ofNat, below]
  · simp [Text.ofInt, withSign, Text.ofNat, below]

theorem integer?_ofInt (i : Int) : integer? (Text.ofInt i) = some i := by
  rw [ofInt_eq_withSign, integer?_text _ _ (Digits.valid_ofNat _) (Digits.ofNat_ne_nil _),
    Digits.value_ofNat]
  by_cases below : i < 0
  · simp only [below, decide_true, if_true, Option.some.injEq]
    omega
  · simp only [below, decide_false, Bool.false_eq_true, if_false, Option.some.injEq]
    omega

theorem digitCount_withSign (negative : Bool) (digits : List Nat) (valid : Valid digits) :
    digitCount (withSign negative (text digits)) = digits.length := by
  have all : (text digits).countP CodePoint.isDigit = digits.length := by
    rw [← Digits.length_text digits]
    exact List.countP_eq_length.mpr (Digits.isDigit_of_mem_text digits valid)
  have minus : (CodePoint.ofChar '-').isDigit = false := by decide
  cases negative with
  | true => simp [withSign, digitCount, minus, all]
  | false => simpa [withSign, digitCount] using all

/-- Every seven digits hold 23 bits. -/
theorem length_ofNat_le (n groups : Nat) (positive : 0 < groups) (bits : n.log2 < 23 * groups) :
    (Digits.ofNat n).length ≤ 7 * groups := by
  have small : n < 10 ^ (7 * groups - 1 + 1) := by
    calc n < 2 ^ (n.log2 + 1) := Nat.lt_log2_self
      _ ≤ 2 ^ (23 * groups) := Nat.pow_le_pow_right (by decide) bits
      _ = (2 ^ 23) ^ groups := Nat.pow_mul ..
      _ ≤ (10 ^ 7) ^ groups := Nat.pow_le_pow_left (by decide) groups
      _ = 10 ^ (7 * groups) := (Nat.pow_mul ..).symm
      _ = 10 ^ (7 * groups - 1 + 1) := by rw [Nat.sub_add_cancel (by omega)]
  have bound := Digits.length_onto_le n [] (7 * groups - 1) small
  rw [List.length_nil] at bound
  unfold Digits.ofNat
  omega

theorem digitCount_ofInt_le (i : Int) (narrow : Number.bitLength i ≤ Number.maxBits) :
    digitCount (Text.ofInt i) ≤ maxDigits := by
  have bits : i.natAbs.log2 < 23 * 609 := by
    unfold Number.bitLength Number.maxBits at narrow
    split at narrow
    · rename_i zero
      simp [zero]
    · omega
  have bound := length_ofNat_le i.natAbs 609 (by decide) bits
  rw [ofInt_eq_withSign, digitCount_withSign _ _ (Digits.valid_ofNat _), maxDigits]
  omega

theorem point_not_mem_ofInt (i : Int) : CodePoint.ofChar '.' ∉ Text.ofInt i := by
  have inDigits : CodePoint.ofChar '.' ∉ text (Digits.ofNat i.natAbs) := fun member =>
    absurd (Digits.isDigit_of_mem_text _ (Digits.valid_ofNat _) _ member) (by decide)
  rw [ofInt_eq_withSign, withSign]
  split
  · rw [List.mem_cons]
    exact fun member => member.elim (by decide) inDigits
  · exact inDigits

/-! ## Decimals -/

theorem exponent?_power (tail : Text) (power : Int) (isPower : Power tail power) :
    exponent? tail = some power := by
  cases isPower with
  | absent => rfl
  | present negative digits valid nonempty =>
      have notEmpty : text digits ≠ [] := fun none =>
        nonempty ((Digits.text_eq_nil_iff digits).mp none)
      have allDigits : (text digits).all CodePoint.isDigit = true :=
        List.all_eq_true.mpr (Digits.isDigit_of_mem_text digits valid)
      have sign : signed (CodePoint.ofChar (if negative then '-' else '+') :: text digits) =
          (negative, text digits) := by
        cases negative <;> rfl
      simp only [exponent?, true_or, if_true, integer?, sign, Digits.ofText_text digits valid]
      rw [if_pos ⟨notEmpty, allDigits⟩]

theorem stops_power (tail : Text) (power : Int) (isPower : Power tail power) :
    Text.Stops CodePoint.isDigit tail := by
  cases isPower with
  | absent => exact Text.stops_nil _
  | present => exact Text.stops_cons _ _ _ (by decide)

theorem decimal?_laid (negative pointed : Bool) (t : Text) (coefficient : Nat) (exponent : Int)
    (laid : Laid pointed t coefficient exponent) :
    decimal? (withSign negative t) = some ⟨negative, coefficient, exponent⟩ := by
  cases laid with
  | intro whole fraction parts tail power valid isWhole isFraction isPower marked point =>
      have sign := signed_withSign negative whole valid isWhole.1 (fraction ++ tail)
      have stops := stops_power tail power isPower
      have exponent := exponent?_power tail power isPower
      have notEmpty : text whole ≠ [] := fun none =>
        isWhole.1 ((Digits.text_eq_nil_iff whole).mp none)
      cases isFraction with
      | absent =>
          have digits := Digits.ofText_text whole valid
          cases isPower with
          | absent => exact absurd rfl marked
          | present powerNegative powerDigits powerValid powerNonempty =>
              have mark : CodePoint.ofChar 'e' ≠ CodePoint.ofChar '.' := by decide
              rw [List.nil_append] at sign ⊢
              simp only [decimal?, sign, Digits.takeWhile_text whole valid _ stops,
                Digits.dropWhile_text whole valid _ stops, if_neg mark, List.append_nil,
                if_neg notEmpty, exponent, Option.map_some, digits, List.length_nil]
      | present _ partsValid nonempty =>
          have atPoint : Text.Stops CodePoint.isDigit
              (CodePoint.ofChar '.' :: (text parts ++ tail)) := Text.stops_cons _ _ _ (by decide)
          have digits := Digits.ofText_text (whole ++ parts)
            (Digits.valid_append whole parts valid partsValid)
          rw [Digits.text_append] at digits
          have notBoth : text whole ++ text parts ≠ [] := fun none =>
            notEmpty (List.append_eq_nil_iff.mp none).1
          simp only [List.cons_append] at sign
          simp only [decimal?, List.cons_append, sign, Digits.takeWhile_text whole valid _ atPoint,
            Digits.dropWhile_text whole valid _ atPoint,
            Digits.takeWhile_text parts partsValid tail stops,
            Digits.dropWhile_text parts partsValid tail stops, if_true, if_neg notBoth,
            exponent, Option.map_some, digits, Digits.length_text]

/-! ## Literals are atoms -/

theorem isNamePart_of_mem_text (digits : List Nat) (valid : Valid digits) (c : CodePoint)
    (member : c ∈ text digits) : c.isNamePart = true := by
  have ofDigit : ∀ d : Fin 10, (CodePoint.ofDigit d).isNamePart = true := by decide
  obtain ⟨d, inDigits, rfl⟩ := List.mem_map.mp member
  exact ofDigit ⟨d, valid d inDigits⟩

theorem isName_withSign (negative : Bool) (t : Text) (nonempty : t ≠ [])
    (parts : ∀ c ∈ t, c.isNamePart = true) : Text.isName (withSign negative t) = true := by
  have minus : (CodePoint.ofChar '-').isNamePart = true := by decide
  cases negative with
  | true => simpa [withSign, Text.isName, minus] using parts
  | false => simpa [withSign, Text.isName, nonempty] using parts

theorem isNamePart_of_mem_power (tail : Text) (power : Int) (isPower : Power tail power)
    (c : CodePoint) (member : c ∈ tail) : c.isNamePart = true := by
  cases isPower with
  | absent => exact absurd member List.not_mem_nil
  | present negative digits valid nonempty =>
      rcases List.mem_cons.mp member with mark | inPower
      · rw [mark]
        decide
      · rcases List.mem_cons.mp inPower with sign | inDigits
        · rw [sign]
          cases negative <;> decide
        · exact isNamePart_of_mem_text digits valid c inDigits

theorem isNamePart_of_mem_fraction (fraction : Text) (parts : List Nat)
    (isFraction : Fraction fraction parts) (c : CodePoint) (member : c ∈ fraction) :
    c.isNamePart = true := by
  cases isFraction with
  | absent => exact absurd member List.not_mem_nil
  | present _ valid nonempty =>
      rcases List.mem_cons.mp member with point | inParts
      · rw [point]
        decide
      · exact isNamePart_of_mem_text parts valid c inParts

section Laid

variable (pointed : Bool) (t : Text) (coefficient : Nat) (exponent : Int)

theorem isNamePart_of_mem_laid (laid : Laid pointed t coefficient exponent) (c : CodePoint)
    (member : c ∈ t) : c.isNamePart = true := by
  cases laid with
  | intro whole fraction parts tail power valid isWhole isFraction isPower marked point =>
      rcases List.mem_append.mp member with inWhole | later
      · exact isNamePart_of_mem_text whole valid c inWhole
      · rcases List.mem_append.mp later with inFraction | inTail
        · exact isNamePart_of_mem_fraction fraction parts isFraction c inFraction
        · exact isNamePart_of_mem_power tail power isPower c inTail

theorem laid_ne_nil (laid : Laid pointed t coefficient exponent) : t ≠ [] := by
  cases laid with
  | intro whole fraction parts tail power valid isWhole isFraction isPower marked point =>
      simp [marked]

theorem point_mem_laid (laid : Laid true t coefficient exponent) : CodePoint.ofChar '.' ∈ t := by
  cases laid with
  | intro whole fraction parts tail power valid isWhole isFraction isPower marked point =>
      cases isFraction with
      | absent => exact absurd rfl (point rfl)
      | present => simp

theorem looksNumeric_laid (negative : Bool) (laid : Laid pointed t coefficient exponent) :
    Text.looksNumeric (withSign negative t) = true := by
  cases laid with
  | intro whole fraction parts tail power valid isWhole isFraction isPower marked point =>
      exact looksNumeric_withSign negative whole valid isWhole.1 _

end Laid

theorem mem_withSign (negative : Bool) (t : Text) (c : CodePoint) (member : c ∈ t) :
    c ∈ withSign negative t := by
  cases negative with
  | true => exact List.mem_cons_of_mem _ member
  | false => exact member

end Numeral

open Numeral (Laid withSign)

theorem Binary64.eq_zero_of_magnitude (x : Binary64) (finite : x.isFinite = true)
    (nothing : x.magnitude = 0) : x = .zero x.isNegative := by
  have rounded := roundUnits_magnitude x finite 1 (by decide)
  rw [nothing, Nat.zero_mul, roundUnits_of_small _ 0 1 (by decide)] at rounded
  exact rounded.symm

/-- The text of a finite double lays out a decimal that reads back as the double. -/
theorem Binary64.text_eq_layoutDecimal (pointed : Bool) (x : Binary64) (finite : x.isFinite = true) :
    ∃ d : Decimal, x.text pointed = layoutDecimal pointed d ∧ d.toBinary64 = x ∧
      d.negative = x.isNegative := by
  cases shape : x with
  | nan => rw [shape] at finite; simp [isFinite] at finite
  | infinite negative => rw [shape] at finite; simp [isFinite] at finite
  | finite negative significand power canonical =>
      rw [← shape]
      refine ⟨if x.magnitude = 0 then ⟨x.isNegative, 0, 0⟩ else x.shortest, ?_, ?_⟩
      · rw [shape]
        rfl
      · split
        · rename_i nothing
          rw [Decimal.toBinary64_zero]
          exact ⟨(eq_zero_of_magnitude x finite nothing).symm, rfl⟩
        · exact shortest_readsBack x finite

/-- Where a decimal is laid out, and zeros that move from its exponent to its coefficient, make no
difference to the double. -/
theorem Decimal.toBinary64_of_layout (d : Decimal) (digits zeros : Nat) :
    toBinary64 ⟨d.negative, d.coefficient * 10 ^ zeros,
      (if d.coefficient = 0 then 1 else digits + d.exponent) - digits - zeros⟩ = d.toBinary64 := by
  obtain ⟨negative, coefficient, exponent⟩ := d
  dsimp only
  by_cases zero : coefficient = 0
  · rw [zero, Nat.zero_mul, toBinary64_zero, toBinary64_zero]
  · have scale : digits + exponent - digits = exponent := by omega
    rw [if_neg zero, scale, toBinary64_shift]

namespace Number

/-- The text of a finite double stands for a decimal that reads back as the double. -/
theorem text_float (pointed : Bool) (x : Binary64) (finite : x.isFinite = true) :
    ∃ t coefficient exponent, x.text pointed = withSign x.isNegative t ∧
      Laid pointed t coefficient exponent ∧
      Decimal.toBinary64 ⟨x.isNegative, coefficient, exponent⟩ = x := by
  obtain ⟨d, written, back, sign⟩ := x.text_eq_layoutDecimal pointed finite
  have whole := Digits.whole_ofNat d.coefficient
  obtain ⟨zeros, laid⟩ := Numeral.laid_layout pointed (Digits.ofNat d.coefficient)
    (Digits.valid_ofNat d.coefficient) whole
    (if d.coefficient = 0 then 1 else (Digits.ofNat d.coefficient).length + d.exponent)
    (fun zero => if_pos (by rw [← Digits.value_ofNat d.coefficient, zero]; rfl))
  rw [Digits.value_ofNat] at laid
  refine ⟨_, _, _, ?_, laid, ?_⟩
  · rw [written, ← sign]
    rfl
  · rw [← sign, d.toBinary64_of_layout, back]

theorem isName_literal (n : Number) (admissible : n.isAdmissible = true) :
    Text.isName n.literal = true := by
  cases n with
  | int i =>
      have valid := Digits.valid_ofNat i.natAbs
      rw [literal, Numeral.ofInt_eq_withSign]
      refine Numeral.isName_withSign _ _ ?_ (Numeral.isNamePart_of_mem_text _ valid)
      exact fun none => Digits.ofNat_ne_nil _ ((Digits.text_eq_nil_iff _).mp none)
  | float x =>
      obtain ⟨t, coefficient, exponent, written, laid, -⟩ := text_float true x admissible
      rw [literal, written]
      exact Numeral.isName_withSign _ _ (Numeral.laid_ne_nil _ t _ _ laid)
        (Numeral.isNamePart_of_mem_laid _ t _ _ laid)

theorem looksNumeric_literal (n : Number) (admissible : n.isAdmissible = true) :
    Text.looksNumeric n.literal = true := by
  cases n with
  | int i =>
      have looks := Numeral.looksNumeric_withSign (i < 0) _ (Digits.valid_ofNat i.natAbs)
        (Digits.ofNat_ne_nil _) []
      rwa [List.append_nil, ← Numeral.ofInt_eq_withSign] at looks
  | float x =>
      obtain ⟨t, coefficient, exponent, written, laid, -⟩ := text_float true x admissible
      rw [literal, written]
      exact Numeral.looksNumeric_laid _ t _ _ _ laid

theorem ofLiteral?_literal (n : Number) (admissible : n.isAdmissible = true) :
    ofLiteral? n.literal = some n := by
  cases n with
  | int i =>
      have narrow : bitLength i ≤ maxBits := of_decide_eq_true admissible
      have noPoint : (Text.ofInt i).contains (CodePoint.ofChar '.') = false := by
        simpa using Numeral.point_not_mem_ofInt i
      simp only [ofLiteral?, literal, noPoint, Bool.false_eq_true, if_false,
        if_pos (Numeral.digitCount_ofInt_le i narrow), Numeral.integer?_ofInt, Option.bind_some,
        admissible, if_true]
  | float x =>
      obtain ⟨t, coefficient, exponent, written, laid, back⟩ := text_float true x admissible
      have point : (withSign x.isNegative t).contains (CodePoint.ofChar '.') = true := by
        simpa using Numeral.mem_withSign _ t _ (Numeral.point_mem_laid t _ _ laid)
      simp only [ofLiteral?, literal, written, point, if_true,
        Numeral.decimal?_laid _ _ t _ _ laid, Option.bind_some, back, admissible]

end Number

theorem Datum.ofAtom_literal (n : Number) (admissible : n.isAdmissible = true) :
    ofAtom n.literal = .ok (.number n) := by
  simp only [ofAtom, Number.looksNumeric_literal n admissible, if_true,
    Number.ofLiteral?_literal n admissible]

end ParenCalc
