import ParenCalc.Json.Render
import ParenCalc.Proofs.Number.Literal
import ParenCalc.Proofs.Text.Surrogates
/-!
# JSON proper

What counts as a text of JSON: no names for infinities and the NaN, no zeros in front of a number,
nothing in a string that has to be escaped.  The texts described here are on one line and in ASCII,
with nothing but spaces between their parts; every value without infinities and NaNs is written as one
of them.
-/
set_option autoImplicit false

namespace ParenCalc.Json

open Digits (Valid Whole text value)
open Numeral (Laid withSign)

/-! ## The grammar -/

inductive SpellsNumber : Text → Number → Prop
  | int (negative : Bool) (digits : List Nat) (valid : Valid digits) (whole : Whole digits) :
      SpellsNumber (withSign negative (text digits))
        (.int (if negative then -(value digits : Int) else value digits))
  | float (negative : Bool) (t : Text) (coefficient : Nat) (exponent : Int)
      (laid : Laid false t coefficient exponent) :
      SpellsNumber (withSign negative t)
        (.float (Decimal.toBinary64 ⟨negative, coefficient, exponent⟩))

/-- The letters that a backslash may stand before, and what they mean there. -/
def escapeLetters : List (CodePoint × CodePoint) :=
  [('\x22', '\x22'), ('\\', '\\'), ('/', '/'), ('b', '\x08'), ('f', '\x0c'), ('n', '\n'),
    ('r', '\r'), ('t', '\t')]

/-- Four hexadecimal digits and their value. -/
inductive SpellsUnit : Text → Nat → Prop
  | intro (a b c d : CodePoint) (va vb vc vd : Nat) (ha : a.hexValue? = some va)
      (hb : b.hexValue? = some vb) (hc : c.hexValue? = some vc) (hd : d.hexValue? = some vd) :
      SpellsUnit [a, b, c, d] (((va * 16 + vb) * 16 + vc) * 16 + vd)

def unicodeEscapeOf (digits : Text) : Text := '\\' :: 'u' :: digits

def spaces (count : Nat) : Text := List.replicate count ' '

/-- One code point within a string. -/
inductive SpellsOne : Text → CodePoint → Prop
  | plain (c : CodePoint) (printable : 32 ≤ c.val ∧ c.val ≤ 126) (noQuote : c ≠ '\x22')
      (noBackslash : c ≠ '\\') : SpellsOne [c] c
  | letter (e c : CodePoint) (means : (e, c) ∈ escapeLetters) : SpellsOne ['\\', e] c
  | unit (digits : Text) (c : CodePoint) (spelled : SpellsUnit digits c.val) :
      SpellsOne (unicodeEscapeOf digits) c
  | pair (digits more : Text) (high low : Nat) (c : CodePoint) (spelledHigh : SpellsUnit digits high)
      (spelledLow : SpellsUnit more low) (isHigh : 0xD800 ≤ high ∧ high ≤ 0xDBFF)
      (isLow : 0xDC00 ≤ low ∧ low ≤ 0xDFFF)
      (means : c.val = 0x10000 + (high - 0xD800) * 0x400 + (low - 0xDC00)) :
      SpellsOne (unicodeEscapeOf digits ++ unicodeEscapeOf more) c

inductive SpellsInside : Text → Text → Prop
  | nil : SpellsInside [] []
  | cons (t rest : Text) (c : CodePoint) (meaning : Text) (first : SpellsOne t c)
      (later : SpellsInside rest meaning) : SpellsInside (t ++ rest) (c :: meaning)

inductive SpellsString : Text → Text → Prop
  | intro (t meaning : Text) (inside : SpellsInside t meaning) :
      SpellsString ("\x22" ++ t ++ "\x22") meaning

mutual

/-- The text is one of the value. -/
inductive Spells : Text → Json → Prop
  | null : Spells "null" .null
  | true : Spells "true" (.bool Bool.true)
  | false : Spells "false" (.bool Bool.false)
  | number (t : Text) (n : Number) (spelled : SpellsNumber t n) : Spells t (.number n)
  | string (t meaning : Text) (spelled : SpellsString t meaning) : Spells t (.string meaning)
  | emptyArray : Spells "[]" (.array [])
  | array (t : Text) (items : List Json) (spelled : SpellsItems t items) :
      Spells ("[" ++ t ++ "]") (.array items)
  | emptyObject : Spells "\x7b\x7d" (.object [])
  | object (t : Text) (members : List (Text × Json)) (spelled : SpellsMembers t members) :
      Spells ("\x7b" ++ t ++ "\x7d") (.object members)

/-- Values with commas between them, and any number of spaces after a comma. -/
inductive SpellsItems : Text → List Json → Prop
  | one (t : Text) (v : Json) (spelled : Spells t v) : SpellsItems t [v]
  | more (t rest : Text) (v : Json) (items : List Json) (gap : Nat) (first : Spells t v)
      (later : SpellsItems rest items) :
      SpellsItems (t ++ ("," ++ spaces gap ++ rest)) (v :: items)

inductive SpellsMembers : Text → List (Text × Json) → Prop
  | one (t : Text) (member : Text × Json) (spelled : SpellsMember t member) :
      SpellsMembers t [member]
  | more (t rest : Text) (member : Text × Json) (members : List (Text × Json)) (gap : Nat)
      (first : SpellsMember t member) (later : SpellsMembers rest members) :
      SpellsMembers (t ++ ("," ++ spaces gap ++ rest)) (member :: members)

inductive SpellsMember : Text → Text × Json → Prop
  | intro (name t : Text) (key : Text) (v : Json) (gap : Nat) (spelledKey : SpellsString name key)
      (spelled : Spells t v) :
      SpellsMember (name ++ (":" ++ spaces gap ++ t)) (key, v)

end

/-! ## One line of ASCII -/

/-- Nothing but the printable characters of ASCII and spaces. -/
def OneLine (t : Text) : Prop := ∀ c ∈ t, 32 ≤ c.val ∧ c.val ≤ 126

instance (t : Text) : Decidable (OneLine t) :=
  inferInstanceAs (Decidable (∀ c ∈ t, 32 ≤ c.val ∧ c.val ≤ 126))

theorem ascii_of_oneLine (t : Text) (oneLine : OneLine t) : t.Ascii := by
  intro c member
  have printable := oneLine c member
  omega

theorem oneLine_append (t rest : Text) (first : OneLine t) (later : OneLine rest) :
    OneLine (t ++ rest) := by
  intro c member
  exact (List.mem_append.mp member).elim (first c) (later c)

theorem oneLine_cons (c : CodePoint) (t : Text) (printable : 32 ≤ c.val ∧ c.val ≤ 126)
    (later : OneLine t) : OneLine (c :: t) := by
  intro d member
  rcases List.mem_cons.mp member with rfl | inRest
  · exact printable
  · exact later d inRest

theorem oneLine_spaces (count : Nat) : OneLine (spaces count) := by
  intro c member
  rw [List.eq_of_mem_replicate member]
  decide

theorem oneLine_digits (digits : List Nat) (valid : Valid digits) : OneLine (text digits) := by
  have ofDigit : ∀ d : Fin 10, OneLine [CodePoint.ofDigit d] := by decide
  intro c member
  obtain ⟨d, inDigits, rfl⟩ := List.mem_map.mp member
  exact ofDigit ⟨d, valid d inDigits⟩ _ List.mem_cons_self

theorem oneLine_withSign (negative : Bool) (t : Text) (body : OneLine t) :
    OneLine (withSign negative t) := by
  cases negative with
  | true => exact oneLine_cons _ t (by decide) body
  | false => exact body

theorem oneLine_laid (pointed : Bool) (t : Text) (coefficient : Nat) (exponent : Int)
    (laid : Laid pointed t coefficient exponent) : OneLine t := by
  cases laid with
  | intro digits fraction parts tail power valid isWhole isFraction isPower marked point =>
      refine oneLine_append _ _ (oneLine_digits digits valid) (oneLine_append _ _ ?_ ?_)
      · cases isFraction with
        | absent => exact List.forall_mem_nil _
        | present _ partsValid nonempty =>
            exact oneLine_cons _ _ (by decide) (oneLine_digits parts partsValid)
      · cases isPower with
        | absent => exact List.forall_mem_nil _
        | present negative powerDigits powerValid nonempty =>
            refine oneLine_cons _ _ (by decide) (oneLine_cons _ _ ?_ (oneLine_digits _ powerValid))
            cases negative <;> decide

theorem oneLine_number (t : Text) (n : Number) (spelled : SpellsNumber t n) : OneLine t := by
  cases spelled with
  | int negative digits valid whole =>
      exact oneLine_withSign negative _ (oneLine_digits digits valid)
  | float negative t coefficient exponent laid =>
      exact oneLine_withSign negative _ (oneLine_laid false t coefficient exponent laid)

theorem oneLine_unit (t : Text) (unit : Nat) (spelled : SpellsUnit t unit) :
    OneLine (unicodeEscapeOf t) := by
  have digit (c : CodePoint) (v : Nat) (means : c.hexValue? = some v) :
      32 ≤ c.val ∧ c.val ≤ 126 := by
    unfold CodePoint.hexValue? at means
    split at means
    · omega
    · split at means
      · omega
      · split at means
        · omega
        · cases means
  cases spelled with
  | intro a b c d va vb vc vd ha hb hc hd =>
      exact oneLine_cons _ _ (by decide) (oneLine_cons _ _ (by decide)
        (oneLine_cons a _ (digit a va ha) (oneLine_cons b _ (digit b vb hb)
          (oneLine_cons c _ (digit c vc hc) (oneLine_cons d _ (digit d vd hd)
            (List.forall_mem_nil _))))))

theorem oneLine_one (t : Text) (c : CodePoint) (spelled : SpellsOne t c) : OneLine t := by
  cases spelled with
  | plain _ printable noQuote noBackslash =>
      exact oneLine_cons c [] printable (List.forall_mem_nil _)
  | letter e c means =>
      have printable : ∀ entry ∈ escapeLetters, 32 ≤ entry.1.val ∧ entry.1.val ≤ 126 := by decide
      exact oneLine_cons _ _ (by decide)
        (oneLine_cons e [] (printable (e, c) means) (List.forall_mem_nil _))
  | unit digits c spelled => exact oneLine_unit digits _ spelled
  | pair digits more high low c spelledHigh spelledLow isHigh isLow means =>
      exact oneLine_append _ _ (oneLine_unit digits high spelledHigh)
        (oneLine_unit more low spelledLow)

theorem oneLine_inside (t meaning : Text) (spelled : SpellsInside t meaning) : OneLine t := by
  induction spelled with
  | nil => exact List.forall_mem_nil _
  | cons t rest c meaning first later ih => exact oneLine_append t rest (oneLine_one t c first) ih

theorem oneLine_string (t meaning : Text) (spelled : SpellsString t meaning) : OneLine t := by
  cases spelled with
  | intro t meaning inside =>
      exact oneLine_append _ _ (oneLine_append _ t (by decide) (oneLine_inside t meaning inside))
        (by decide)

mutual

theorem oneLine_of_spells : ∀ {t : Text} {v : Json}, Spells t v → OneLine t
  | _, _, .null => by decide
  | _, _, .true => by decide
  | _, _, .false => by decide
  | _, _, .number t n spelled => oneLine_number t n spelled
  | _, _, .string t meaning spelled => oneLine_string t meaning spelled
  | _, _, .emptyArray => by decide
  | _, _, .array t items spelled =>
      oneLine_append _ _ (oneLine_append _ t (by decide) (oneLine_of_spellsItems spelled))
        (by decide)
  | _, _, .emptyObject => by decide
  | _, _, .object t members spelled =>
      oneLine_append _ _ (oneLine_append _ t (by decide) (oneLine_of_spellsMembers spelled))
        (by decide)

theorem oneLine_of_spellsItems : ∀ {t : Text} {items : List Json}, SpellsItems t items → OneLine t
  | _, _, .one t v spelled => oneLine_of_spells spelled
  | _, _, .more t rest v items gap first later =>
      oneLine_append t _ (oneLine_of_spells first)
        (oneLine_append _ rest (oneLine_append _ _ (by decide) (oneLine_spaces gap))
          (oneLine_of_spellsItems later))

theorem oneLine_of_spellsMembers : ∀ {t : Text} {members : List (Text × Json)},
    SpellsMembers t members → OneLine t
  | _, _, .one t member spelled => oneLine_of_spellsMember spelled
  | _, _, .more t rest member members gap first later =>
      oneLine_append t _ (oneLine_of_spellsMember first)
        (oneLine_append _ rest (oneLine_append _ _ (by decide) (oneLine_spaces gap))
          (oneLine_of_spellsMembers later))

theorem oneLine_of_spellsMember : ∀ {t : Text} {member : Text × Json},
    SpellsMember t member → OneLine t
  | _, _, .intro name t key v gap spelledKey spelled =>
      oneLine_append name _ (oneLine_string name key spelledKey)
        (oneLine_append _ t (oneLine_append _ _ (by decide) (oneLine_spaces gap))
          (oneLine_of_spells spelled))

end

/-! ## Writing -/

theorem spellsUnit_hex (unit : Nat) (small : unit < 0x10000) :
    SpellsUnit (Text.hex 4 unit) unit := by
  have digit (n : Nat) : (CodePoint.ofHexDigit (n % 16)).hexValue? = some (n % 16) :=
    CodePoint.hexValue?_ofHexDigit _ (Nat.mod_lt n (by decide))
  have spelled := SpellsUnit.intro _ _ _ _ _ _ _ _ (digit (unit / 16 / 16 / 16))
    (digit (unit / 16 / 16)) (digit (unit / 16)) (digit unit)
  have size : ((unit / 16 / 16 / 16 % 16 * 16 + unit / 16 / 16 % 16) * 16 + unit / 16 % 16) * 16 +
      unit % 16 = unit := by
    omega
  rw [size] at spelled
  exact spelled

theorem spellsOne_escaped (c : CodePoint) : SpellsOne (escaped c) c := by
  unfold escaped
  split
  · rename_i quote
    exact .letter '\x22' c (by simp [escapeLetters, quote])
  split
  · rename_i backslash
    exact .letter '\\' c (by simp [escapeLetters, backslash])
  split
  · rename_i newline
    exact .letter 'n' c (by simp [escapeLetters, newline])
  split
  · rename_i carriage
    exact .letter 'r' c (by simp [escapeLetters, carriage])
  split
  · rename_i tab
    exact .letter 't' c (by simp [escapeLetters, tab])
  split
  · rename_i backspace
    exact .letter 'b' c (by simp [escapeLetters, backspace])
  split
  · rename_i formFeed
    exact .letter 'f' c (by simp [escapeLetters, formFeed])
  split
  · rename_i noQuote noBackslash _ _ _ _ _ printable
    exact .plain c printable noQuote noBackslash
  split
  · rename_i small
    exact .unit _ c (spellsUnit_hex c.val small)
  · have top := c.val_lt
    exact .pair _ _ _ _ c (spellsUnit_hex _ (by omega)) (spellsUnit_hex _ (by omega)) (by omega)
      (by omega) (by omega)

theorem spellsInside_escaped (t : Text) : SpellsInside (t.flatMap escaped) t := by
  induction t with
  | nil => exact .nil
  | cons c rest ih => exact .cons _ _ c rest (spellsOne_escaped c) ih

theorem spellsString_renderString (t : Text) : SpellsString (renderString t) t :=
  .intro _ t (spellsInside_escaped t)

theorem spellsNumber_text (n : Number) (strict : (number n).isStrict = Bool.true) :
    SpellsNumber n.text n := by
  cases n with
  | int i =>
      have spelled := SpellsNumber.int (decide (i < 0)) (Digits.ofNat i.natAbs)
        (Digits.valid_ofNat _) (Digits.whole_ofNat _)
      have size : (if decide (i < 0) then -(value (Digits.ofNat i.natAbs) : Int)
          else value (Digits.ofNat i.natAbs)) = i := by
        rw [Digits.value_ofNat]
        by_cases below : i < 0
        · simp only [below, decide_true, if_true]
          omega
        · simp only [below, decide_false, Bool.false_eq_true, if_false]
          omega
      rw [size, ← Numeral.ofInt_eq_withSign] at spelled
      exact spelled
  | float x =>
      obtain ⟨t, coefficient, exponent, written, laid, back⟩ := Number.text_float false x strict
      have spelled := SpellsNumber.float x.isNegative t coefficient exponent laid
      rw [back, ← written] at spelled
      exact spelled

theorem spellsMember_render (key : Text) (v : Json) (spelled : Spells v.render v) :
    SpellsMember (renderString key ++ ": " ++ v.render) (key, v) := by
  rw [List.append_assoc]
  exact .intro _ _ key v 1 (spellsString_renderString key) spelled

mutual

/-- A value without infinities and NaNs is written as JSON proper. -/
theorem spells_render : ∀ v : Json, v.isStrict = Bool.true → Spells v.render v
  | .null, _ => .null
  | .bool Bool.true, _ => .true
  | .bool Bool.false, _ => .false
  | .number n, strict => .number _ n (spellsNumber_text n strict)
  | .string t, _ => .string _ t (spellsString_renderString t)
  | .array [], _ => .emptyArray
  | .array (v :: rest), strict =>
      .array _ _ (spellsItems_render (v :: rest) (List.cons_ne_nil v rest) strict)
  | .object [], _ => .emptyObject
  | .object (member :: rest), strict =>
      .object _ _ (spellsMembers_render (member :: rest) (List.cons_ne_nil member rest) strict)

theorem spellsItems_render : ∀ items : List Json, items ≠ [] → areStrict items = Bool.true →
    SpellsItems (Text.joined ", " (renderItems items)) items
  | [], nonempty, _ => absurd rfl nonempty
  | [v], _, strict => by
      rw [renderItems, renderItems, Text.joined_singleton]
      exact .one _ v (spells_render v (Bool.and_eq_true_iff.mp strict).1)
  | v :: w :: rest, _, strict => by
      obtain ⟨first, later⟩ := Bool.and_eq_true_iff.mp strict
      rw [renderItems, renderItems, Text.joined_cons_cons, ← renderItems]
      exact .more _ _ v (w :: rest) 1 (spells_render v first)
        (spellsItems_render (w :: rest) (List.cons_ne_nil w rest) later)

theorem spellsMembers_render : ∀ members : List (Text × Json), members ≠ [] →
    areStrictMembers members = Bool.true →
    SpellsMembers (Text.joined ", " (renderMembers members)) members
  | [], nonempty, _ => absurd rfl nonempty
  | [(key, v)], _, strict => by
      have own := spells_render v (Bool.and_eq_true_iff.mp strict).1
      rw [renderMembers, renderMembers, Text.joined_singleton]
      exact .one _ (key, v) (spellsMember_render key v own)
  | (key, v) :: (other, w) :: rest, _, strict => by
      obtain ⟨first, later⟩ := Bool.and_eq_true_iff.mp strict
      rw [renderMembers, renderMembers, Text.joined_cons_cons, ← renderMembers]
      exact .more _ _ (key, v) ((other, w) :: rest) 1
        (spellsMember_render key v (spells_render v first))
        (spellsMembers_render ((other, w) :: rest) (List.cons_ne_nil _ rest) later)

end

end ParenCalc.Json
