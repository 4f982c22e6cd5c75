import ParenCalc.Proofs.Eval.Provenance
import ParenCalc.Proofs.Json.Grammar
import ParenCalc.Proofs.Text.LineEnds
/-!
# The words of messages

A message consists of words of its own and of texts that it names as they are.  Its own words are
printable: fixed words and numbers are printable ASCII, and everything else is escaped between
quotation marks.  So a message has every property that its named texts have and that printable words
do not spoil; it has no line end in it, for one.
-/
set_option autoImplicit false

namespace ParenCalc

namespace Text

/-! ## Printable texts -/

def Printable (t : Text) : Prop := ∀ c ∈ t, c.isPrintable = true

theorem isPrintable_of_ascii (c : CodePoint) (ascii : 32 ≤ c.val ∧ c.val ≤ 126) :
    c.isPrintable = true := by
  have apart : ∀ range ∈ unprintableRanges, range.2 < 32 ∨ 126 < range.1 := by decide +kernel
  rw [CodePoint.isPrintable, CodePoint.inRanges, Bool.not_eq_true', List.any_eq_false]
  intro range member
  have outside := apart range member
  simp only [Bool.and_eq_true, decide_eq_true_eq]
  omega

theorem isSurrogate_of_isPrintable (c : CodePoint) (printable : c.isPrintable = true) :
    c.isSurrogate = false := by
  have range : (0xD7FC, 0xF8FF) ∈ unprintableRanges := by decide
  have outside := List.any_eq_false.mp (Bool.not_eq_true' _ ▸ printable) _ range
  rw [CodePoint.isSurrogate_eq_false_iff]
  unfold CodePoint.IsHigh CodePoint.IsLow
  simp only [Bool.and_eq_true, decide_eq_true_eq] at outside
  omega

theorem printable_of_oneLine (t : Text) (oneLine : Json.OneLine t) : t.Printable :=
  fun c member => isPrintable_of_ascii c (oneLine c member)

theorem scalar_of_printable (t : Text) (printable : t.Printable) : t.Scalar :=
  fun c member => isSurrogate_of_isPrintable c (printable c member)

theorem unbroken_of_printable (t : Text) (printable : t.Printable) : t.Unbroken := by
  intro member
  exact absurd (printable _ member) (by decide)

theorem printable_append (t rest : Text) (first : t.Printable) (later : rest.Printable) :
    (t ++ rest).Printable := by
  intro c member
  exact (List.mem_append.mp member).elim (first c) (later c)

theorem printable_cons (c : CodePoint) (t : Text) (first : c.isPrintable = true)
    (later : t.Printable) : Printable (c :: t) :=
  List.forall_mem_cons.mpr ⟨first, later⟩

theorem printable_between (before after t : Text) (opening : Json.OneLine before)
    (closing : Json.OneLine after) (inside : t.Printable) : (before ++ t ++ after).Printable :=
  printable_append _ _ (printable_append _ _ (printable_of_oneLine _ opening) inside)
    (printable_of_oneLine _ closing)

theorem printable_separated (t separator rest : Text) (between : Json.OneLine separator)
    (first : t.Printable) (later : rest.Printable) : (t ++ separator ++ rest).Printable :=
  printable_append _ _ (printable_append _ _ first (printable_of_oneLine _ between)) later

/-! ## Quoted texts -/

theorem printable_hex (width n : Nat) : (hex width n).Printable := by
  have digit : ∀ d : Fin 16, Json.OneLine [CodePoint.ofHexDigit d] := by decide
  induction width generalizing n with
  | zero => exact List.forall_mem_nil _
  | succ width ih =>
      have last := digit ⟨n % 16, Nat.mod_lt n (by decide)⟩
      exact printable_append _ _ (ih (n / 16)) (printable_of_oneLine _ last)

theorem printable_escaped (mark c : CodePoint) (plain : mark.isPrintable = true) :
    (escaped mark c).Printable := by
  have backslash : (CodePoint.ofChar '\\').isPrintable = true := isPrintable_of_ascii _ (by decide)
  have escape (letter : CodePoint) (t : Text) (own : letter.isPrintable = true)
      (rest : t.Printable) : Printable ('\\' :: letter :: t) :=
    printable_cons _ _ backslash (printable_cons _ _ own rest)
  unfold escaped
  split
  · rename_i marked
    refine escape c [] ?_ (List.forall_mem_nil _)
    rcases marked with rfl | rfl
    · exact plain
    · exact backslash
  split
  · exact escape _ [] (isPrintable_of_ascii _ (by decide)) (List.forall_mem_nil _)
  split
  · exact escape _ [] (isPrintable_of_ascii _ (by decide)) (List.forall_mem_nil _)
  split
  · exact escape _ [] (isPrintable_of_ascii _ (by decide)) (List.forall_mem_nil _)
  split
  · rename_i printable
    exact List.forall_mem_singleton.mpr printable
  split
  · exact escape _ _ (isPrintable_of_ascii _ (by decide)) (printable_hex 2 c.val)
  split
  · exact escape _ _ (isPrintable_of_ascii _ (by decide)) (printable_hex 4 c.val)
  · exact escape _ _ (isPrintable_of_ascii _ (by decide)) (printable_hex 8 c.val)

theorem printable_quoted (t : Text) : t.quoted.Printable := by
  have mark : (quotationMark t).isPrintable = true := by
    unfold quotationMark
    split <;> exact isPrintable_of_ascii _ (by decide)
  refine printable_append _ _ (printable_cons _ _ mark ?_) (List.forall_mem_singleton.mpr mark)
  intro c member
  obtain ⟨d, -, inEscape⟩ := List.mem_flatMap.mp member
  exact printable_escaped _ d mark c inEscape

end Text

theorem Number.oneLine_text (n : Number) : Json.OneLine n.text := by
  have finite (strict : (Json.number n).isStrict = true) : Json.OneLine n.text :=
    Json.oneLine_number _ n (Json.spellsNumber_text n strict)
  cases n with
  | int i => exact finite rfl
  | float x =>
      cases x with
      | finite negative significand power canonical => exact finite rfl
      | nan => decide
      | infinite negative => cases negative <;> decide

theorem Text.oneLine_ofNat (n : Nat) : Json.OneLine (Text.ofNat n) :=
  Json.oneLine_digits _ (Digits.valid_ofNat n)

theorem Operator.oneLine_name (op : Operator) : Json.OneLine op.symbol.name := by
  rcases op with op | op <;> cases op <;> decide

theorem Foreign.oneLine_truthText (b : Bool) : Json.OneLine (truthText b) := by
  cases b <;> decide

theorem Foreign.printable_quoted (v : Foreign) : v.quoted.Printable := by
  cases v with
  | nothing => exact Text.printable_of_oneLine _ (by decide)
  | truth b => exact Text.printable_of_oneLine _ (oneLine_truthText b)
  | text t => exact t.printable_quoted

namespace Datum

mutual

theorem printable_quoted : ∀ d : Datum, d.quoted.Printable
  | .number n => Text.printable_of_oneLine _ n.oneLine_text
  | .symbol s => Text.printable_between _ _ _ (by decide) (by decide) s.name.printable_quoted
  | .list items =>
      Text.printable_between _ _ _ (by decide) (by decide) (printable_quotedItems items)
  | .foreign v => v.printable_quoted

theorem printable_quotedItems : ∀ items : List Datum, (quotedItems items).Printable
  | [] => List.forall_mem_nil _
  | [d] => printable_quoted d
  | d :: e :: rest =>
      Text.printable_separated _ _ _ (by decide) (printable_quoted d)
        (printable_quotedItems (e :: rest))

end

end Datum

/-! ## Messages -/

/-- A property of texts that printable words do not spoil. -/
structure Text.Wording (p : Text → Prop) : Prop where
  own : ∀ t : Text, t.Printable → p t
  naming : ∀ words t : Text, words.Printable → p t → p (words ++ t)

theorem Text.wording_unbroken : Text.Wording Text.Unbroken where
  own := unbroken_of_printable
  naming words t printable unbroken :=
    (unbroken_append words t).mpr ⟨unbroken_of_printable words printable, unbroken⟩

/-- The texts that a message names as they are. -/
def Malformed.named : Malformed → List Text
  | .badNumber t | .trailing t => [t]
  | .unknownHead s | .reserved s => [s.name]
  | _ => []

def Fault.named : Fault → List Text
  | .malformed cause => cause.named
  | .undefined name => [name]
  | .sessionNotFound id => [id]
  | .internal (.unknownOperator name) => [name.name]
  | .arithmetic _ | .sessionLimit _ | .internal (.notExpression _) => []

theorem Fault.named_subset_texts (fault : Fault) : fault.named ⊆ fault.texts := by
  cases fault with
  | malformed cause => cases cause <;> simp [named, texts, Malformed.named, Malformed.texts]
  | internal cause => cases cause <;> simp [named, texts]
  | undefined _ | arithmetic _ | sessionNotFound _ | sessionLimit _ => simp [named, texts]

/-- A fault of a text as a whole does not name it. -/
theorem Malformed.named_of_isOfWhole (text : Text) (cause : Malformed)
    (whole : cause.IsOfWhole text) : cause.named = [] := by
  rcases whole with rfl | rfl <;> rfl

section Message

variable {p : Text → Prop} (wording : Text.Wording p)

include wording

theorem Malformed.holds_message (cause : Malformed) (named : ∀ t ∈ cause.named, p t) :
    p cause.message := by
  have fixed (words : Text) (oneLine : Json.OneLine words) : p words :=
    wording.own words (Text.printable_of_oneLine words oneLine)
  have naming (words t : Text) (oneLine : Json.OneLine words) (own : p t) : p (words ++ t) :=
    wording.naming words t (Text.printable_of_oneLine words oneLine) own
  cases cause with
  | unexpected position c =>
      exact wording.naming _ _ (Text.printable_between _ _ _ (by decide +kernel) (by decide +kernel)
        (Text.printable_of_oneLine _ (Text.oneLine_ofNat position)))
        (wording.own _ (Text.printable_quoted [c]))
  | badNumber t | trailing t => exact naming _ t (by decide +kernel) (named t List.mem_cons_self)
  | unknownHead s | reserved s =>
      exact naming _ s.name (by decide +kernel) (named s.name List.mem_cons_self)
  | badName d | headNoSymbol d | unbuildable d | defineTarget d =>
      exact naming _ _ (by decide +kernel) (wording.own _ d.printable_quoted)
  | undefinable d =>
      exact wording.own _
        (Text.printable_between _ _ _ (by decide +kernel) (by decide +kernel) d.printable_quoted)
  | unsupportedLiteral b =>
      exact naming _ _ (by decide +kernel) (fixed _ (Foreign.oneLine_truthText b))
  | arity op count =>
      have required : Json.OneLine op.arityText := by
        cases op <;> (rw [Operator.arityText]; decide +kernel)
      exact wording.own _ (Text.printable_separated _ _ _ (by decide +kernel)
        (Text.printable_separated _ _ _ (by decide +kernel)
          (Text.printable_of_oneLine _ op.oneLine_name) (Text.printable_of_oneLine _ required))
        (Text.printable_of_oneLine _ (Text.oneLine_ofNat count)))
  | unopened | unclosed | empty t | emptyForm | defineShape | condShape | tooDeep t =>
      rw [message]
      exact fixed _ (by decide +kernel)

/-- A message is as the texts that it names. -/
theorem Fault.holds_message (fault : Fault) (named : ∀ t ∈ fault.named, p t) :
    p fault.report.message := by
  have naming (words t : Text) (oneLine : Json.OneLine words) (own : p t) : p (words ++ t) :=
    wording.naming words t (Text.printable_of_oneLine words oneLine) own
  cases fault with
  | malformed cause => exact cause.holds_message wording named
  | undefined name | sessionNotFound name =>
      exact naming _ name (by decide +kernel) (named name List.mem_cons_self)
  | arithmetic cause =>
      cases cause with
      | divisionByZero a b =>
          have oneLine : Json.OneLine "Division by zero" := by decide
          exact wording.own _ (Text.printable_of_oneLine _ oneLine)
      | numericOverflow op operands | integerOverflow op operands =>
          exact naming _ _ (by decide +kernel)
            (wording.own _ (Text.printable_of_oneLine _ (Operator.arithmetic op).oneLine_name))
  | sessionLimit limit =>
      have written := Text.printable_of_oneLine _ (Number.int limit).oneLine_text
      exact wording.own _
        (Text.printable_between _ _ _ (by decide +kernel) (by decide +kernel) written)
  | internal cause =>
      cases cause with
      | unknownOperator name =>
          exact naming _ name.name (by decide +kernel) (named name.name List.mem_cons_self)
      | notExpression d => exact naming _ _ (by decide +kernel) (wording.own _ d.printable_quoted)

end Message

/-! ## Failures of texts -/

/-- The tokens of a text have no line end in them, nor has what its scan ends with. -/
theorem Scan.unbroken_ofTextFrom (position : Nat) (text : Text) :
    (Scan.ofTextFrom position text).Holds Text.Unbroken := by
  fun_induction Scan.ofTextFrom position text with
  | case1 position => exact holds_nothing
  | case2 position c rest blank ih | case3 position rest notBlank ih => exact ih
  | case4 position rest notBlank notComment ih | case5 position rest notBlank notComment _ ih =>
      exact holds_cons _ _ (by decide) ih
  | case6 position c rest notBlank notComment notOpening notClosing isPart more ih =>
      have isName : Text.isName (c :: more) = true := by
        rw [Text.isName, List.isEmpty_cons, List.all_cons, isPart, List.all_takeWhile]
        rfl
      exact holds_cons _ _ (Text.unbroken_of_isName _ isName) ih
  | case7 position c rest notBlank notComment notOpening notClosing noPart =>
      refine ⟨List.forall_mem_nil _, ?_⟩
      rintro cause found
      cases found
      refine List.forall_mem_singleton.mpr fun member => ?_
      rw [← List.mem_singleton.mp member] at notBlank
      exact absurd notBlank (by decide)

/-- The message about a failure of a text is on one line. -/
theorem unbroken_of_interpret (room : Nat) (text : Text) (s : Scope) (fault : Fault)
    (failed : (interpret room text s).1 = .error (.fault fault)) :
    fault.report.message.Unbroken := by
  refine fault.holds_message Text.wording_unbroken ?_
  rcases quotes_interpret room text (Scan.unbroken_ofTextFrom 0 text) s _ failed with whole | parts
  · obtain ⟨cause, same, whole⟩ := whole
    cases same
    rw [Fault.named, cause.named_of_isOfWhole text whole]
    exact List.forall_mem_nil _
  · exact fun t member => parts t (fault.named_subset_texts member)

end ParenCalc
