import ParenCalc.Proofs.Json.Grammar
import ParenCalc.Proofs.Json.Limits
import ParenCalc.Proofs.Text.Surrogates
/-!
# Numbers, names and strings are read

The text of a number is read as the number, up to where it does not go on; there may be only so many
digits in an integer.  The text of a string is read as the string, up to the mark that ends it; no
surrogate pair may be split in it, because two halves in a row are read as one code point.
-/
set_option autoImplicit false

namespace ParenCalc

/-- A number that is read back from its text: an integer of not too many digits, or a double that has
a text. -/
def Number.IsSendable : Number → Prop
  | .int i => (Digits.ofNat i.natAbs).length ≤ Numeral.maxDigits
  | .float x => x.isFinite = true

namespace Json

open Digits (Valid Whole text value)
open Numeral (Laid Fraction Power withSign)
open Text (Stops stops_nil stops_cons stops_append)

/-! ## Numbers -/

/-- What a number would go on with. -/
def goesOn (c : CodePoint) : Bool :=
  c.isAsciiDigit || c = '.' || c = 'e' || c = 'E'

theorem stops_of_imp (p q : CodePoint → Bool) (imp : ∀ c, p c = true → q c = true) (rest : Text)
    (stops : Stops q rest) : Stops p rest := by
  intro c first
  have fails := stops c first
  rw [← Bool.not_eq_true] at fails ⊢
  exact fun passes => fails (imp c passes)

theorem isAsciiDigit_of_mem_text (digits : List Nat) (valid : Valid digits) (c : CodePoint)
    (member : c ∈ text digits) : c.isAsciiDigit = true := by
  have ascii : ∀ d : Fin 10, (CodePoint.ofDigit d).isAsciiDigit = true := by decide
  obtain ⟨d, inDigits, rfl⟩ := List.mem_map.mp member
  exact ascii ⟨d, valid d inDigits⟩

theorem takeWhile_digits (digits : List Nat) (valid : Valid digits) (rest : Text)
    (stops : Stops CodePoint.isAsciiDigit rest) :
    (text digits ++ rest).takeWhile CodePoint.isAsciiDigit = text digits :=
  Text.takeWhile_append _ _ rest (isAsciiDigit_of_mem_text digits valid) stops

theorem wholePart_append (digits : List Nat) (valid : Valid digits) (whole : Whole digits)
    (rest : Text) (stops : Stops CodePoint.isAsciiDigit rest) :
    wholePart (text digits ++ rest) = text digits := by
  have zero : ∀ d : Fin 10, CodePoint.ofDigit d = '0' → d = 0 := by decide
  cases digits with
  | nil => exact absurd rfl whole.1
  | cons d more =>
      have all := takeWhile_digits (d :: more) valid rest stops
      rw [text, List.map_cons, List.cons_append] at all ⊢
      rw [wholePart]
      split
      · rename_i leading
        have isZero := congrArg Fin.val (zero ⟨d, valid d List.mem_cons_self⟩ leading)
        cases whole.2 (congrArg some isZero)
        rfl
      · exact all

theorem fractionPart_append (fraction : Text) (parts : List Nat)
    (isFraction : Fraction fraction parts) (rest : Text)
    (stops : Stops (fun c => c.isAsciiDigit || c = '.') rest) :
    fractionPart (fraction ++ rest) = fraction := by
  cases isFraction with
  | absent =>
      cases rest with
      | nil => rfl
      | cons c more =>
          have noPoint : c ≠ '.' := by
            intro point
            have fails := stops c rfl
            rw [point] at fails
            exact absurd fails (by decide)
          rw [List.nil_append, fractionPart, if_neg fun both => noPoint both.1]
  | present parts valid nonempty =>
      have digits := takeWhile_digits parts valid rest
        (stops_of_imp _ _ (fun c digit => by rw [digit]; rfl) rest stops)
      have some : text parts ≠ [] := fun none => nonempty ((Digits.text_eq_nil_iff parts).mp none)
      rw [List.cons_append, fractionPart]
      rw [digits, if_pos ⟨rfl, some⟩]

theorem exponentPart_append (tail : Text) (power : Int) (isPower : Power tail power) (rest : Text)
    (stops : Stops goesOn rest) : exponentPart (tail ++ rest) = tail := by
  cases isPower with
  | absent =>
      cases rest with
      | nil => rfl
      | cons c more =>
          have noMark : ¬ (c = 'e' ∨ c = 'E') := by
            have fails := stops c rfl
            rintro (mark | mark) <;> rw [mark] at fails <;> exact absurd fails (by decide)
          rw [List.nil_append, exponentPart, if_neg fun both => noMark both.1]
  | present negative digits valid nonempty =>
      have run := takeWhile_digits digits valid rest
        (stops_of_imp _ _ (fun c digit => by rw [goesOn, digit]; rfl) rest stops)
      have some : text digits ≠ [] := fun none => nonempty ((Digits.text_eq_nil_iff digits).mp none)
      have sign : signPart (CodePoint.ofChar (if negative then '-' else '+') ::
          (text digits ++ rest)) = [CodePoint.ofChar (if negative then '-' else '+')] := by
        cases negative <;> rfl
      rw [List.cons_append, List.cons_append, exponentPart]
      rw [sign, List.length_singleton, List.drop_succ_cons, List.drop_zero, run,
        if_pos ⟨.inl rfl, some⟩]
      rfl

theorem stops_fraction (fraction : Text) (parts : List Nat) (isFraction : Fraction fraction parts) :
    Stops CodePoint.isAsciiDigit fraction := by
  cases isFraction with
  | absent => exact stops_nil _
  | present => exact stops_cons _ _ _ (by decide)

theorem stops_power (tail : Text) (power : Int) (isPower : Power tail power) :
    Stops (fun c => c.isAsciiDigit || c = '.') tail := by
  cases isPower with
  | absent => exact stops_nil _
  | present => exact stops_cons _ _ _ (by decide)

/-- The minus sign of a number is told by its first code point. -/
theorem minus_withSign (negative : Bool) (digits : List Nat) (valid : Valid digits)
    (nonempty : digits ≠ []) (rest : Text) :
    (if (withSign negative (text digits ++ rest)).take 1 = "-" then ("-" : Text) else []) =
      withSign negative [] := by
  cases negative with
  | true => rfl
  | false =>
      have noMinus : ∀ d : Fin 10, [CodePoint.ofDigit d] ≠ "-" := by decide
      cases digits with
      | nil => exact absurd rfl nonempty
      | cons d more => exact if_neg (noMinus ⟨d, valid d List.mem_cons_self⟩)

theorem withSign_append (negative : Bool) (t rest : Text) :
    withSign negative t ++ rest = withSign negative (t ++ rest) := by
  cases negative <;> rfl

/-- A number is read up to where it does not go on: as an integer when it has neither a fraction nor
a power. -/
theorem readNumber_eq (position : Nat) (negative : Bool) (whole : List Nat) (fraction : Text)
    (parts : List Nat) (tail : Text) (power : Int) (valid : Valid whole) (isWhole : Whole whole)
    (isFraction : Fraction fraction parts) (isPower : Power tail power) (rest : Text)
    (stops : Stops goesOn rest) :
    let numeral := withSign negative (text whole ++ (fraction ++ tail))
    readNumber ⟨position, numeral ++ rest⟩ =
      if fraction = [] ∧ tail = [] then
        if Numeral.maxDigits < whole.length then .error (.overrun .digits)
        else
          match Numeral.integer? numeral with
          | some n => .ok (.number (.int n), ⟨position + numeral.length, rest⟩)
          | none => Input.fail .value position
      else
        match Numeral.decimal? numeral with
        | some d => .ok (.number (.float d.toBinary64), ⟨position + numeral.length, rest⟩)
        | none => Input.fail .value position := by
  intro numeral
  have noDigit : Stops CodePoint.isAsciiDigit rest :=
    stops_of_imp _ _ (fun c digit => by rw [goesOn, digit]; rfl) rest stops
  have noFraction : Stops (fun c => c.isAsciiDigit || c = '.') rest :=
    stops_of_imp _ _ (fun c part => by rw [goesOn, part]; rfl) rest stops
  have sign := minus_withSign negative whole valid isWhole.1 (fraction ++ tail ++ rest)
  have wholeRead := wholePart_append whole valid isWhole (fraction ++ (tail ++ rest))
    (stops_append _ fraction _ (stops_fraction fraction parts isFraction)
      (stops_append _ tail rest (stops_of_imp _ _ (fun c digit => by rw [digit]; rfl) _
        (stops_power tail power isPower)) noDigit))
  have fractionRead := fractionPart_append fraction parts isFraction (tail ++ rest)
    (stops_append _ tail rest (stops_power tail power isPower) noFraction)
  have powerRead := exponentPart_append tail power isPower rest stops
  have front : numeral ++ rest = withSign negative [] ++
      (text whole ++ (fraction ++ (tail ++ rest))) := by
    simp only [numeral, withSign_append, List.append_assoc, List.nil_append]
  have same : withSign negative [] ++ text whole ++ fraction ++ tail = numeral := by
    simp only [numeral, withSign_append, List.append_assoc, List.nil_append]
  have notEmpty : text whole ≠ [] := fun none => isWhole.1 ((Digits.text_eq_nil_iff whole).mp none)
  have minus : (if (numeral ++ rest).take 1 = "-" then ("-" : Text) else []) =
      withSign negative [] := by
    simpa only [numeral, withSign_append, List.append_assoc] using sign
  have after : (⟨position, numeral ++ rest⟩ : Input).drop numeral.length =
      ⟨position + numeral.length, rest⟩ := by
    rw [Input.drop, List.drop_left]
  unfold readNumber
  dsimp only
  rw [minus]
  rw [front, List.drop_left, wholeRead, List.drop_left, fractionRead, List.drop_left, powerRead, same,
    if_neg notEmpty, Digits.length_text, ← front]
  exact after ▸ rfl

theorem readNumber_of_spells (t : Text) (n : Number) (spelled : SpellsNumber t n)
    (sendable : n.IsSendable) (position : Nat) (rest : Text) (stops : Stops goesOn rest) :
    readNumber ⟨position, t ++ rest⟩ = .ok (.number n, ⟨position + t.length, rest⟩) := by
  cases spelled with
  | int negative digits valid whole =>
      have short : ¬ Numeral.maxDigits < digits.length := by
        have magnitude : (if negative then -(value digits : Int) else value digits).natAbs =
            value digits := by
          cases negative
          · rfl
          · exact Int.natAbs_neg _
        have count : (Digits.ofNat (value digits)).length ≤ Numeral.maxDigits := by
          rw [← magnitude]
          exact sendable
        rw [Digits.ofNat_value digits valid whole] at count
        exact Nat.not_lt.mpr count
      have read := readNumber_eq position negative digits [] [] [] 0 valid whole .absent .absent rest
        stops
      have back := Numeral.integer?_text negative digits valid whole.1
      simp only [List.append_nil, and_self, if_true, if_neg short, back] at read
      exact read
  | float negative t coefficient exponent laid =>
      have back := Numeral.decimal?_laid negative false t coefficient exponent laid
      cases laid with
      | intro whole fraction parts tail power valid isWhole isFraction isPower marked point =>
          have read := readNumber_eq position negative whole fraction parts tail power valid isWhole
            isFraction isPower rest stops
          have notInteger : ¬ (fraction = [] ∧ tail = []) := fun none =>
            marked (List.append_eq_nil_iff.mpr none)
          simp only [if_neg notInteger, back] at read
          exact read

/-- A number begins with a minus sign or a digit. -/
theorem digit_of_spellsNumber (t : Text) (n : Number) (spelled : SpellsNumber t n) :
    ∃ negative d more, d < 10 ∧ t = withSign negative (CodePoint.ofDigit d :: more) := by
  cases spelled with
  | int negative digits valid whole =>
      cases digits with
      | nil => exact absurd rfl whole.1
      | cons d rest => exact ⟨negative, d, _, valid d List.mem_cons_self, rfl⟩
  | float negative t coefficient exponent laid =>
      cases laid with
      | intro whole fraction parts tail power valid isWhole isFraction isPower marked point =>
          cases whole with
          | nil => exact absurd rfl isWhole.1
          | cons d rest => exact ⟨negative, d, _, valid d List.mem_cons_self, rfl⟩

theorem find?_named_of_digit (d : Nat) (low : d < 10) (rest : Text) :
    (named.find? fun entry => entry.1.isPrefixOf (CodePoint.ofDigit d :: rest)) = none := by
  have heads : ∀ d : Fin 10, ∀ entry ∈ named,
      ∃ c ∈ entry.1.head?, (c == CodePoint.ofDigit d) = false := by
    decide
  rw [List.find?_eq_none]
  intro entry member
  obtain ⟨c, head, other⟩ := heads ⟨d, low⟩ entry member
  obtain ⟨tail, shape⟩ := List.head?_eq_some_iff.mp head
  rw [shape, List.isPrefixOf, other]
  simp

/-- No name begins as a number does. -/
theorem find?_named_of_number (negative : Bool) (d : Nat) (low : d < 10) (rest : Text) :
    (named.find? fun entry =>
      entry.1.isPrefixOf (withSign negative (CodePoint.ofDigit d :: rest))) = none := by
  cases negative with
  | false => exact find?_named_of_digit d low rest
  | true =>
      have other : ∀ d : Fin 10, ∀ entry ∈ named,
          entry.1.take 2 ≠ [CodePoint.ofChar '-', .ofDigit d] ∧ 2 ≤ entry.1.length := by
        decide
      rw [List.find?_eq_none]
      intro entry member isPrefix
      obtain ⟨differs, long⟩ := other ⟨d, low⟩ entry member
      obtain ⟨tail, whole⟩ := List.isPrefixOf_iff_prefix.mp isPrefix
      have front := congrArg (List.take 2) whole
      rw [List.take_append_of_le_length long] at front
      exact differs front

/-- What is no string and has no brackets is a name or a number. -/
theorem readValue_eq_readScalar (room position : Nat) (c : CodePoint) (rest : Text)
    (mark : c ≠ '\x22' ∧ c ≠ '[' ∧ c ≠ '\x7b') :
    readValue room ⟨position, c :: rest⟩ = readScalar ⟨position, c :: rest⟩ := by
  unfold readValue
  simp only [if_neg mark.1, if_neg mark.2.1, if_neg mark.2.2]

theorem readScalar_of_unnamed (i : Input)
    (unnamed : (named.find? fun entry => entry.1.isPrefixOf i.rest) = none) :
    readScalar i = readNumber i := by
  simp only [readScalar, unnamed]

theorem readValue_of_number (negative : Bool) (d : Nat) (low : d < 10) (room position : Nat)
    (rest : Text) :
    let t := withSign negative (CodePoint.ofDigit d :: rest)
    readValue room ⟨position, t⟩ = readNumber ⟨position, t⟩ := by
  have unnamed := find?_named_of_number negative d low rest
  have minus : CodePoint.ofChar '-' ≠ '\x22' ∧ CodePoint.ofChar '-' ≠ '[' ∧
      CodePoint.ofChar '-' ≠ '\x7b' := by
    decide
  have digit : ∀ d : Fin 10, CodePoint.ofDigit d ≠ '\x22' ∧ CodePoint.ofDigit d ≠ '[' ∧
      CodePoint.ofDigit d ≠ '\x7b' := by
    decide
  cases negative with
  | true =>
      exact (readValue_eq_readScalar room position _ _ minus).trans (readScalar_of_unnamed _ unnamed)
  | false =>
      exact (readValue_eq_readScalar room position _ _ (digit ⟨d, low⟩)).trans
        (readScalar_of_unnamed _ unnamed)

theorem readValue_of_spellsNumber (t : Text) (n : Number) (spelled : SpellsNumber t n)
    (sendable : n.IsSendable) (room position : Nat) (rest : Text) (stops : Stops goesOn rest) :
    readValue room ⟨position, t ++ rest⟩ = .ok (.number n, ⟨position + t.length, rest⟩) := by
  have read := readNumber_of_spells t n spelled sendable position rest stops
  obtain ⟨negative, d, more, low, rfl⟩ := digit_of_spellsNumber t n spelled
  rw [withSign_append] at read ⊢
  exact (readValue_of_number negative d low room position (more ++ rest)).trans read

theorem readValue_null (room position : Nat) (rest : Text) :
    readValue room ⟨position, ("null" : Text) ++ rest⟩ = .ok (.null, ⟨position + 4, rest⟩) := by
  unfold readValue
  rfl

theorem readValue_true (room position : Nat) (rest : Text) :
    readValue room ⟨position, ("true" : Text) ++ rest⟩ = .ok (.bool true, ⟨position + 4, rest⟩) := by
  unfold readValue
  rfl

theorem readValue_false (room position : Nat) (rest : Text) :
    readValue room ⟨position, ("false" : Text) ++ rest⟩ =
      .ok (.bool false, ⟨position + 5, rest⟩) := by
  unfold readValue
  rfl

/-! ## Strings -/

theorem fourDigits?_of_spells (t : Text) (unit : Nat) (spelled : SpellsUnit t unit) (rest : Text) :
    fourDigits? (t ++ rest) = some unit ∧ t.length = 4 := by
  cases spelled with
  | intro a b c d va vb vc vd ha hb hc hd =>
      have size : (va * 16 + vb) * 256 + (vc * 16 + vd) = ((va * 16 + vb) * 16 + vc) * 16 + vd := by
        omega
      refine ⟨?_, rfl⟩
      simp only [fourDigits?, List.cons_append, ha, hb, hc, hd, Option.bind_some, Option.pure_def,
        Option.bind_eq_bind, size]

theorem escapeLetters_spec (e c : CodePoint) (means : (e, c) ∈ escapeLetters) :
    e ≠ 'u' ∧ simpleEscape? e = some c := by
  have all : ∀ entry ∈ escapeLetters,
      entry.1 ≠ CodePoint.ofChar 'u' ∧ simpleEscape? entry.1 = some entry.2 := by
    decide
  exact all (e, c) means

theorem pairedHalf?_of_unit (position : Nat) (digits : Text) (unit : Nat)
    (spelled : SpellsUnit digits unit) (notLow : ¬ (0xDC00 ≤ unit ∧ unit ≤ 0xDFFF)) (rest : Text) :
    pairedHalf? position (unicodeEscapeOf digits ++ rest) = .ok none := by
  have four := (fourDigits?_of_spells digits unit spelled rest).1
  unfold pairedHalf?
  split
  · have digitsNext : (unicodeEscapeOf digits ++ rest).drop 2 = digits ++ rest := rfl
    rw [digitsNext, four]
    dsimp only
    rw [if_neg notLow]
  · rfl

theorem pairedHalf?_of_ne (position : Nat) (t : Text) (noEscape : t.take 2 ≠ "\\u") :
    pairedHalf? position t = .ok none := by
  rw [pairedHalf?, if_neg fun both => noEscape both.1]

/-- There is no second half where a string ends, or goes on with something else. -/
theorem pairedHalf?_of_spells (position : Nat) (t meaning : Text) (spelled : SpellsInside t meaning)
    (notLow : ∀ c, meaning.head? = some c → ¬ c.IsLow) (rest : Text) :
    pairedHalf? position (t ++ ("\x22" ++ rest)) = .ok none := by
  cases spelled with
  | nil => exact pairedHalf?_of_ne position _ (by simp [Text.ofString, CodePoint.ofChar])
  | cons t more c meaning first later =>
      have other := notLow c rfl
      cases first with
      | plain _ printable noQuote noBackslash =>
          refine pairedHalf?_of_ne position _ ?_
          intro escape
          exact noBackslash (List.cons.inj escape).1
      | letter e _ means =>
          refine pairedHalf?_of_ne position _ ?_
          intro escape
          exact (escapeLetters_spec e c means).1 (List.cons.inj (List.cons.inj escape).2).1
      | unit digits _ spelled =>
          rw [List.append_assoc]
          exact pairedHalf?_of_unit position digits c.val spelled other _
      | pair digits second high low _ spelledHigh spelledLow isHigh isLow means =>
          rw [List.append_assoc, List.append_assoc]
          exact pairedHalf?_of_unit position digits high spelledHigh (by omega) _

theorem ofNat_eq (c : CodePoint) (n : Nat) (same : c.val = n) : CodePoint.ofNat n = c := by
  subst same
  rw [CodePoint.ofNat, dif_pos c.val_lt]

theorem unicodeEscape_of_unit (position : Nat) (digits : Text) (c : CodePoint)
    (spelled : SpellsUnit digits c.val) (rest : Text) (goes : rest ≠ [])
    (alone : c.IsHigh → pairedHalf? (position + 6) rest = .ok none) :
    unicodeEscape position (digits ++ rest) = .ok (c, 4) := by
  obtain ⟨four, length⟩ := fourDigits?_of_spells digits c.val spelled rest
  have long : ¬ (digits ++ rest).length < 5 := by
    have positive := List.length_pos_of_ne_nil goes
    rw [List.length_append]
    omega
  have after : (digits ++ rest).drop 4 = rest := by rw [← length, List.drop_left]
  unfold unicodeEscape
  rw [four]
  dsimp only
  rw [if_neg long, after]
  split
  · rename_i high
    rw [alone high]
    simp only [Except.map, ofNat_eq c c.val rfl]
  · rw [ofNat_eq c c.val rfl]

theorem unicodeEscape_of_pair (position : Nat) (digits second : Text) (high low : Nat) (c : CodePoint)
    (spelledHigh : SpellsUnit digits high) (spelledLow : SpellsUnit second low)
    (isHigh : 0xD800 ≤ high ∧ high ≤ 0xDBFF) (isLow : 0xDC00 ≤ low ∧ low ≤ 0xDFFF)
    (means : c.val = 0x10000 + (high - 0xD800) * 0x400 + (low - 0xDC00)) (rest : Text)
    (goes : rest ≠ []) :
    unicodeEscape position (digits ++ (unicodeEscapeOf second ++ rest)) = .ok (c, 10) := by
  obtain ⟨four, length⟩ := fourDigits?_of_spells digits high spelledHigh
    (unicodeEscapeOf second ++ rest)
  obtain ⟨fourMore, lengthMore⟩ := fourDigits?_of_spells second low spelledLow rest
  have positive := List.length_pos_of_ne_nil goes
  have long : ¬ (digits ++ (unicodeEscapeOf second ++ rest)).length < 5 := by
    rw [List.length_append, List.length_append, unicodeEscapeOf, List.length_cons, List.length_cons]
    omega
  have after : (digits ++ (unicodeEscapeOf second ++ rest)).drop 4 =
      unicodeEscapeOf second ++ rest := by
    rw [← length, List.drop_left]
  have half : pairedHalf? (position + 6) (unicodeEscapeOf second ++ rest) = .ok (some low) := by
    have marked : (unicodeEscapeOf second ++ rest).take 2 = "\\u" := rfl
    have enough : 6 < (unicodeEscapeOf second ++ rest).length := by
      rw [List.length_append, unicodeEscapeOf, List.length_cons, List.length_cons]
      omega
    have next : (unicodeEscapeOf second ++ rest).drop 2 = second ++ rest := rfl
    rw [pairedHalf?, if_pos ⟨marked, enough⟩, next, fourMore]
    dsimp only
    rw [if_pos isLow]
  unfold unicodeEscape
  rw [four]
  dsimp only
  rw [if_neg long, if_pos isHigh, after, half]
  simp only [Except.map, ofNat_eq c _ means]

theorem readString_end (start position : Nat) (rest : Text) :
    readString start position ("\x22" ++ rest) = .ok ([], ⟨position + 1, rest⟩) := by
  rw [readString.eq_def]
  rfl

theorem readString_plain (start position : Nat) (c : CodePoint) (rest : Text)
    (printable : 32 ≤ c.val) (noQuote : c ≠ '\x22') (noBackslash : c ≠ '\\') :
    readString start position (c :: rest) =
      (readString start (position + 1) rest).map fun (t, after) => (c :: t, after) := by
  rw [readString.eq_def]
  dsimp only
  rw [if_neg noQuote, if_neg (Nat.not_lt.mpr printable), if_neg noBackslash]

theorem readString_letter (start position : Nat) (e c : CodePoint) (rest : Text)
    (means : (e, c) ∈ escapeLetters) :
    readString start position (CodePoint.ofChar '\\' :: e :: rest) =
      (readString start (position + 2) rest).map fun (t, after) => (c :: t, after) := by
  have backslash : CodePoint.ofChar '\\' ≠ '\x22' ∧ ¬ (CodePoint.ofChar '\\').val < 32 := by decide
  obtain ⟨noUnicode, simple⟩ := escapeLetters_spec e c means
  rw [readString.eq_def]
  dsimp only
  rw [if_neg backslash.1, if_neg backslash.2, if_pos rfl, if_neg noUnicode, simple]

theorem readString_unicode (start position : Nat) (c : CodePoint) (count : Nat) (rest : Text)
    (escape : unicodeEscape position rest = .ok (c, count)) :
    readString start position (unicodeEscapeOf rest) =
      (readString start (position + 2 + count) (rest.drop count)).map
        fun (t, after) => (c :: t, after) := by
  have backslash : CodePoint.ofChar '\\' ≠ '\x22' ∧ ¬ (CodePoint.ofChar '\\').val < 32 := by decide
  rw [unicodeEscapeOf, readString.eq_def]
  dsimp only
  rw [if_neg backslash.1, if_neg backslash.2, if_pos rfl, if_pos rfl, escape]

/-- The inside of a string is read up to the mark that ends it. -/
theorem readString_of_spells (start position : Nat) (t meaning : Text)
    (spelled : SpellsInside t meaning) (unsplit : meaning.Unsplit) (rest : Text) :
    readString start position (t ++ ("\x22" ++ rest)) =
      .ok (meaning, ⟨position + t.length + 1, rest⟩) := by
  induction spelled generalizing position with
  | nil => exact readString_end start position rest
  | cons t more c meaning first later ih =>
      obtain ⟨apart, unsplitLater⟩ := (Text.unsplit_cons_iff c meaning).mp unsplit
      have goes : more ++ ("\x22" ++ rest : Text) ≠ [] := by simp [Text.ofString]
      have onward (count : Nat) (length : t.length = count) :
          (readString start (position + count) (more ++ ("\x22" ++ rest))).map
              (fun (rest, after) => (c :: rest, after)) =
            .ok (c :: meaning, ⟨position + (t ++ more).length + 1, rest⟩) := by
        rw [ih (position + count) unsplitLater, List.length_append, length]
        simp only [Except.map, Nat.add_assoc]
      rw [List.append_assoc]
      cases first with
      | plain _ printable noQuote noBackslash =>
          exact (readString_plain start position c _ printable.1 noQuote noBackslash).trans
            (onward 1 rfl)
      | letter e _ means =>
          exact (readString_letter start position e c _ means).trans (onward 2 rfl)
      | unit digits _ spelled =>
          have length := (fourDigits?_of_spells digits c.val spelled []).2
          have escape := unicodeEscape_of_unit position digits c spelled _ goes fun high =>
            pairedHalf?_of_spells (position + 6) more meaning later
              (fun d first low => apart d first ⟨high, low⟩) rest
          have taken : (unicodeEscapeOf digits).length = 6 := congrArg (· + 2) length
          refine (readString_unicode start position c 4 _ escape).trans ?_
          rw [← length, List.drop_left, length]
          exact onward 6 taken
      | pair digits second high low _ spelledHigh spelledLow isHigh isLow means =>
          have length := (fourDigits?_of_spells digits high spelledHigh []).2
          have lengthMore := (fourDigits?_of_spells second low spelledLow []).2
          have escape := unicodeEscape_of_pair position digits second high low c spelledHigh spelledLow
            isHigh isLow means _ goes
          have taken : (digits ++ unicodeEscapeOf second).length = 10 := by
            rw [List.length_append, length, unicodeEscapeOf, List.length_cons, List.length_cons,
              lengthMore]
          rw [← List.append_assoc] at escape
          rw [show unicodeEscapeOf digits ++ unicodeEscapeOf second =
            unicodeEscapeOf (digits ++ unicodeEscapeOf second) from rfl] at onward ⊢
          refine (readString_unicode start position c 10 _ escape).trans ?_
          rw [← taken, List.drop_left, taken]
          exact onward 12 (congrArg (· + 2) taken)

theorem length_bracketed (position : Nat) (opening closing t : Text) (one : opening.length = 1)
    (another : closing.length = 1) :
    position + (opening ++ t ++ closing).length = position + 1 + t.length + 1 := by
  rw [List.length_append, List.length_append]
  omega

theorem readString_of_spellsString (position : Nat) (t meaning : Text)
    (spelled : SpellsString t meaning) (unsplit : meaning.Unsplit) (rest : Text) :
    ∃ more, t ++ rest = CodePoint.ofChar '\x22' :: more ∧
      readString position (position + 1) more = .ok (meaning, ⟨position + t.length, rest⟩) := by
  cases spelled with
  | intro t meaning inside =>
      have read := readString_of_spells position (position + 1) t meaning inside unsplit rest
      rw [length_bracketed position "\x22" "\x22" t rfl rfl, ← read]
      refine ⟨t ++ ("\x22" ++ rest), ?_, rfl⟩
      rw [List.append_assoc, List.append_assoc]
      rfl

theorem readValue_string (room position : Nat) (t meaning : Text)
    (spelled : SpellsString t meaning) (unsplit : meaning.Unsplit) (rest : Text) :
    readValue room ⟨position, t ++ rest⟩ = .ok (.string meaning, ⟨position + t.length, rest⟩) := by
  obtain ⟨more, shape, read⟩ :=
    readString_of_spellsString position t meaning spelled unsplit rest
  rw [shape]
  unfold readValue
  show (readString position (position + 1) more).map _ = _
  rw [read]
  rfl

end Json

end ParenCalc
