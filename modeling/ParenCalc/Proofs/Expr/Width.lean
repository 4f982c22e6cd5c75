import ParenCalc.Proofs.Expr.Printing
import ParenCalc.Proofs.Text.LineEnds
/-!
# The width of a page

Whether a form fits is asked before the forms around it are closed, and their closing parentheses go
to the end of their last rows.  So a row holds a whole form only if that form fits the width by
itself; only the closing parentheses of forms that end with it may run over.  Every other row is the
opening of a form or an atom, and there is nowhere to break it.
-/
set_option autoImplicit false

namespace ParenCalc

namespace Text

/-! ## Parentheses -/

/-- A text in which every parenthesis has its partner. -/
inductive Balanced : Text → Prop
  | plain (t : Text) (noOpening : CodePoint.ofChar '(' ∉ t) (noClosing : CodePoint.ofChar ')' ∉ t) :
      Balanced t
  | append (s t : Text) (first : Balanced s) (second : Balanced t) : Balanced (s ++ t)
  | wrap (t : Text) (inside : Balanced t) : Balanced ("(" ++ t ++ ")")

/-- A row that shows a whole form: an opening parenthesis and the one that closes it. -/
def HoldsForm (row : Text) : Prop :=
  ∃ before inside after, row = before ++ ("(" ++ inside ++ ")") ++ after ∧ Balanced inside

theorem mem_of_holdsForm (row : Text) (holds : row.HoldsForm) :
    CodePoint.ofChar '(' ∈ row ∧ CodePoint.ofChar ')' ∈ row := by
  obtain ⟨before, inside, after, rfl, -⟩ := holds
  simp [ofString]

theorem balanced_of_isName (t : Text) (name : t.isName = true) : Balanced t :=
  .plain t (not_mem_of_isName t name _ (by decide)) (not_mem_of_isName t name _ (by decide))

/-- The closing parentheses of so many forms. -/
def closing (count : Nat) : Text := List.replicate count (CodePoint.ofChar ')')

theorem unbroken_closing (count : Nat) : (closing count).Unbroken := by
  intro member
  exact absurd (List.eq_of_mem_replicate member) (by decide)

theorem closing_zero : closing 0 = [] := rfl

theorem closing_succ (count : Nat) : ")" ++ closing count = closing (count + 1) := rfl

end Text

namespace Expr

/-! ## Forms and their parts -/

def parts : Expr → List Expr
  | .definition _ value => [value]
  | .conditional test yes no => [test, yes, no]
  | .application _ arguments => arguments
  | _ => []

theorem sources_eq_map (arguments : List Expr) : sources arguments = arguments.map source := by
  induction arguments with
  | nil => rfl
  | cons e rest ih => rw [sources, ih, List.map_cons]

theorem layouts_eq_map (page : Page) (level : Nat) (arguments : List Expr) :
    layouts page level arguments = arguments.map (layout page level) := by
  induction arguments with
  | nil => rfl
  | cons e rest ih => rw [layouts, ih, List.map_cons]

theorem allWellFormed_iff (arguments : List Expr) :
    AllWellFormed arguments ↔ ∀ e ∈ arguments, e.WellFormed := by
  induction arguments with
  | nil => simp [AllWellFormed]
  | cons e rest ih => rw [AllWellFormed, ih, List.forall_mem_cons]

theorem wellFormed_of_mem_parts (e part : Expr) (wellFormed : e.WellFormed)
    (member : part ∈ e.parts) : part.WellFormed := by
  cases e with
  | literal n | reference x | alien d => simp [parts] at member
  | definition x value =>
      obtain rfl := List.mem_singleton.mp member
      exact wellFormed.2
  | conditional test yes no =>
      simp only [parts, List.mem_cons, List.not_mem_nil, or_false] at member
      rcases member with rfl | rfl | rfl
      · exact wellFormed.1
      · exact wellFormed.2.1
      · exact wellFormed.2.2
  | application x arguments => exact (allWellFormed_iff arguments).mp wellFormed.2 part member

theorem sizeOf_lt_of_mem_parts (e part : Expr) (member : part ∈ e.parts) :
    sizeOf part < sizeOf e := by
  cases e with
  | literal n | reference x | alien d => simp [parts] at member
  | definition x value =>
      obtain rfl := List.mem_singleton.mp member
      rw [definition.sizeOf_spec]
      omega
  | conditional test yes no =>
      simp only [parts, List.mem_cons, List.not_mem_nil, or_false] at member
      rw [conditional.sizeOf_spec]
      rcases member with rfl | rfl | rfl <;> omega
  | application x arguments =>
      have smaller := List.sizeOf_lt_of_mem (show part ∈ arguments from member)
      rw [application.sizeOf_spec]
      omega

/-- What holds of an expression as soon as it holds of its parts holds of all. -/
theorem parts_induction {motive : Expr → Prop}
    (step : ∀ e : Expr, (∀ part ∈ e.parts, motive part) → motive e) (e : Expr) : motive e :=
  step e fun part _ => parts_induction step part
termination_by sizeOf e
decreasing_by exact sizeOf_lt_of_mem_parts e part (by assumption)

theorem source_form (e : Expr) (hasParts : e.parts ≠ []) :
    e.source = joinedForm e.head (e.parts.map source) := by
  cases e with
  | literal n | reference x | alien d => exact absurd rfl hasParts
  | definition x value => rw [source, parts, List.map_singleton]
  | conditional test yes no => rw [source, parts, List.map_cons, List.map_cons, List.map_singleton]
  | application x arguments => rw [source, parts, sources_eq_map]

theorem layout_form (page : Page) (level : Nat) (e : Expr) (hasParts : e.parts ≠ []) :
    layout page level e =
      page.form level e.head e.source (e.parts.map (layout page (level + 1))) := by
  cases e with
  | literal n | reference x | alien d => exact absurd rfl hasParts
  | definition x value => rw [layout, parts, List.map_singleton]
  | conditional test yes no => rw [layout, parts, List.map_cons, List.map_cons, List.map_singleton]
  | application x arguments => rw [layout, parts, layouts_eq_map]

theorem layout_atom (page : Page) (level : Nat) (e : Expr) (wellFormed : e.WellFormed)
    (noParts : e.parts = []) : layout page level e = e.source := by
  cases e with
  | literal n | reference x | alien d => rfl
  | definition x value => cases noParts
  | conditional test yes no => cases noParts
  | application x arguments =>
      obtain ⟨⟨op, -, enough⟩, -⟩ := wellFormed
      obtain rfl : arguments = [] := noParts
      cases op <;> cases enough

theorem isName_atom (e : Expr) (wellFormed : e.WellFormed) (noParts : e.parts = []) :
    Text.isName e.source = true := by
  cases e with
  | literal n => exact Number.isName_literal n wellFormed
  | reference x => exact x.isName
  | definition x value => cases noParts
  | conditional test yes no => cases noParts
  | application x arguments =>
      obtain ⟨⟨op, -, enough⟩, -⟩ := wellFormed
      obtain rfl : arguments = [] := noParts
      cases op <;> cases enough
  | alien d => cases wellFormed

theorem not_mem_head (e : Expr) (c : CodePoint) (outside : c.isNamePart = false)
    (notSpace : c ≠ CodePoint.ofChar ' ') : c ∉ e.head := by
  have notIn (x : Symbol) : c ∉ x.name := Text.not_mem_of_isName x.name x.isName c outside
  cases e with
  | literal n | reference x | alien d => exact List.not_mem_nil
  | definition x value =>
      simp only [head, List.mem_append, not_or]
      exact ⟨⟨notIn .define, fun member => notSpace (List.mem_singleton.mp member)⟩, notIn x⟩
  | conditional test yes no => exact notIn .cond
  | application x arguments => exact notIn x

/-! ## Sources -/

theorem balanced_spaced (texts : List Text) (each : ∀ t ∈ texts, Text.Balanced t) :
    Text.Balanced (texts.flatMap (fun t => CodePoint.ofChar ' ' :: t)) := by
  induction texts with
  | nil => exact .plain [] List.not_mem_nil List.not_mem_nil
  | cons t rest ih =>
      have space : Text.Balanced [CodePoint.ofChar ' '] := .plain _ (by decide) (by decide)
      have first : Text.Balanced (CodePoint.ofChar ' ' :: t) :=
        .append _ _ space (each t List.mem_cons_self)
      rw [List.flatMap_cons]
      exact .append _ _ first (ih fun other member => each other (List.mem_cons_of_mem t member))

theorem wraps_source (e : Expr) (hasParts : e.parts ≠ [])
    (each : ∀ part ∈ e.parts, Text.Balanced part.source) :
    ∃ inside, e.source = "(" ++ inside ++ ")" ∧ Text.Balanced inside := by
  have front : Text.Balanced e.head :=
    .plain _ (e.not_mem_head _ (by decide) (by decide)) (e.not_mem_head _ (by decide) (by decide))
  have spaced := balanced_spaced (e.parts.map source) (List.forall_mem_map.mpr each)
  refine ⟨_, ?_, .append _ _ front spaced⟩
  rw [source_form e hasParts, joinedForm]
  simp only [List.append_assoc]

theorem balanced_source (e : Expr) (wellFormed : e.WellFormed) : Text.Balanced e.source := by
  induction e using parts_induction with
  | step e ih =>
      by_cases noParts : e.parts = []
      · exact Text.balanced_of_isName _ (isName_atom e wellFormed noParts)
      · obtain ⟨inside, wrapped, balanced⟩ := wraps_source e noParts fun part member =>
          ih part member (wellFormed_of_mem_parts e part wellFormed member)
        rw [wrapped]
        exact .wrap inside balanced

theorem unbroken_source (e : Expr) (wellFormed : e.WellFormed) : Text.Unbroken e.source := by
  induction e using parts_induction with
  | step e ih =>
      by_cases noParts : e.parts = []
      · exact Text.unbroken_of_isName _ (isName_atom e wellFormed noParts)
      · have front : Text.Unbroken e.head := e.not_mem_head _ (by decide) (by decide)
        have spaced : Text.Unbroken
            ((e.parts.map source).flatMap (fun t => CodePoint.ofChar ' ' :: t)) := by
          intro member
          obtain ⟨t, printed, inside⟩ := List.mem_flatMap.mp member
          obtain ⟨part, isPart, rfl⟩ := List.mem_map.mp printed
          rcases List.mem_cons.mp inside with space | inPart
          · exact absurd space (by decide)
          · exact ih part isPart (wellFormed_of_mem_parts e part wellFormed isPart) inPart
        have opening : Text.Unbroken "(" := by decide
        have closing : Text.Unbroken ")" := by decide
        rw [source_form e noParts, joinedForm]
        simp only [Text.unbroken_append]
        exact ⟨⟨⟨opening, front⟩, spaced⟩, closing⟩

/-! ## Places on a page -/

theorem Page.not_mem_margin (page : Page) (level : Nat) (c : CodePoint)
    (notSpace : c ≠ CodePoint.ofChar ' ') : c ∉ page.margin level := by
  intro member
  exact notSpace (List.eq_of_mem_replicate member)

theorem Page.unbroken_margin (page : Page) (level : Nat) : Text.Unbroken (page.margin level) :=
  page.not_mem_margin level _ (by decide)

theorem Page.length_margin (page : Page) (level : Nat) (indent : 0 ≤ page.indent) :
    ((page.margin level).length : Int) = level * page.indent := by
  have nonneg : 0 ≤ (level : Int) * page.indent := Int.mul_nonneg (Int.natCast_nonneg level) indent
  rw [Page.margin, List.length_replicate, Int.toNat_of_nonneg nonneg]

/-- Where the parts of an expression begin rows of their own: at which level, and how many of the
forms around them end with them. -/
inductive Placed (page : Page) (whole : Expr) : Nat → Nat → Expr → Prop
  | whole : Placed page whole 0 0 whole
  | inner (level closers : Nat) (e part : Expr) (init : List Expr) (last : Expr)
      (outer : Placed page whole level closers e) (broken : page.fits level e.source = false)
      (split : e.parts = init ++ [last]) (member : part ∈ init) :
      Placed page whole (level + 1) 0 part
  | last (level closers : Nat) (e : Expr) (init : List Expr) (last : Expr)
      (outer : Placed page whole level closers e) (broken : page.fits level e.source = false)
      (split : e.parts = init ++ [last]) : Placed page whole (level + 1) (closers + 1) last

theorem closers_le_level (page : Page) (whole e : Expr) (level closers : Nat)
    (placed : Placed page whole level closers e) : closers ≤ level := by
  induction placed with
  | whole => exact Nat.le_refl 0
  | inner level closers e part init last outer broken split member ih => exact Nat.zero_le _
  | last level closers e init last outer broken split ih => exact Nat.succ_le_succ ih

/-- What a row of an expression on a page is: a whole form, which fits the width but for the closing
parentheses of the forms that end with it, or an atom, or the opening of a form. -/
inductive RowOf (page : Page) (whole : Expr) (row : Text) : Prop
  | form (level closers : Nat) (part : Expr) (placed : Placed page whole level closers part)
      (hasParts : part.parts ≠ [])
      (shown : row = page.margin level ++ part.source ++ Text.closing closers)
      (holds : row.HoldsForm) (within : (row.length : Int) ≤ page.width + closers)
      (few : closers ≤ level) : RowOf page whole row
  | atom (level closers : Nat) (part : Expr) (placed : Placed page whole level closers part)
      (noParts : part.parts = [])
      (shown : row = page.margin level ++ part.source ++ Text.closing closers)
      (incomplete : ¬ row.HoldsForm) : RowOf page whole row
  | opening (level closers : Nat) (part : Expr) (placed : Placed page whole level closers part)
      (hasParts : part.parts ≠ []) (shown : row = page.margin level ++ ("(" ++ part.head))
      (incomplete : ¬ row.HoldsForm) : RowOf page whole row

theorem rows_placed (page : Page) (level closers : Nat) (t : Text) (unbroken : t.Unbroken) :
    Text.rows (page.margin level ++ t ++ Text.closing closers) =
      [page.margin level ++ t ++ Text.closing closers] := by
  refine Text.rows_of_unbroken _ ?_
  simp only [Text.unbroken_append]
  exact ⟨⟨page.unbroken_margin level, unbroken⟩, Text.unbroken_closing closers⟩

section Row

variable (page : Page) (whole e : Expr) (level closers : Nat)
  (placed : Placed page whole level closers e)

include placed

theorem rowOf_atom (noParts : e.parts = []) (named : Text.isName e.source = true) :
    RowOf page whole (page.margin level ++ e.source ++ Text.closing closers) := by
  refine .atom level closers e placed noParts rfl fun holds => ?_
  have member := (Text.mem_of_holdsForm _ holds).1
  rcases List.mem_append.mp member with inFront | inClosing
  · rcases List.mem_append.mp inFront with inMargin | inName
    · exact page.not_mem_margin level _ (by decide) inMargin
    · exact Text.not_mem_of_isName _ named _ (by decide) inName
  · exact absurd (List.eq_of_mem_replicate inClosing) (by decide)

theorem rowOf_form (wellFormed : e.WellFormed) (hasParts : e.parts ≠ []) (indent : 0 ≤ page.indent)
    (fits : page.fits level e.source = true) :
    RowOf page whole (page.margin level ++ e.source ++ Text.closing closers) := by
  obtain ⟨inside, wrapped, balanced⟩ := wraps_source e hasParts fun part member =>
    balanced_source part (wellFormed_of_mem_parts e part wellFormed member)
  have few := closers_le_level page whole e level closers placed
  refine .form level closers e placed hasParts rfl ?_ ?_ few
  · exact ⟨page.margin level, inside, Text.closing closers, by rw [wrapped], balanced⟩
  · have room := of_decide_eq_true fits
    have margin := page.length_margin level indent
    rw [List.length_append, List.length_append, Text.closing, List.length_replicate]
    omega

theorem rowOf_opening (hasParts : e.parts ≠ []) :
    RowOf page whole (page.margin level ++ ("(" ++ e.head)) := by
  refine .opening level closers e placed hasParts rfl fun holds => ?_
  have member := (Text.mem_of_holdsForm _ holds).2
  rcases List.mem_append.mp member with inMargin | inFront
  · exact page.not_mem_margin level _ (by decide) inMargin
  · rcases List.mem_append.mp inFront with inOpening | inHead
    · exact absurd (List.mem_singleton.mp inOpening) (by decide)
    · exact e.not_mem_head _ (by decide) (by decide) inHead

end Row

/-! ## Rows -/

theorem layout_of_fits (page : Page) (level : Nat) (e : Expr) (hasParts : e.parts ≠ [])
    (fits : page.fits level e.source = true) : layout page level e = e.source := by
  rw [layout_form page level e hasParts, Page.form, if_pos fits]

/-- A broken form, with its parts each behind a line feed. -/
theorem layout_of_broken (page : Page) (level : Nat) (e : Expr) (hasParts : e.parts ≠ [])
    (broken : page.fits level e.source = false) :
    layout page level e =
      "(" ++ e.head ++
        e.parts.flatMap (fun part => CodePoint.ofChar '\n' ::
          (page.margin (level + 1) ++ layout page (level + 1) part)) ++ ")" := by
  rw [layout_form page level e hasParts, Page.form, if_neg (Bool.eq_false_iff.mp broken),
    List.flatMap_map]
  rfl

/-- The rows of a broken form: its opening, and the rows of its parts, of which the last one takes
over its closing parentheses and one more. -/
theorem rows_of_broken (page : Page) (level closers : Nat) (e : Expr) (hasParts : e.parts ≠ [])
    (broken : page.fits level e.source = false) (init : List Expr) (last : Expr)
    (split : e.parts = init ++ [last]) :
    Text.rows (page.margin level ++ layout page level e ++ Text.closing closers) =
      (page.margin level ++ ("(" ++ e.head)) ::
        init.flatMap (fun part => Text.rows
          (page.margin (level + 1) ++ layout page (level + 1) part ++ Text.closing 0)) ++
        Text.rows (page.margin (level + 1) ++ layout page (level + 1) last ++
          Text.closing (closers + 1)) := by
  have front : Text.Unbroken (page.margin level ++ ("(" ++ e.head)) := by
    simp only [Text.unbroken_append]
    exact ⟨page.unbroken_margin level, by decide, e.not_mem_head _ (by decide) (by decide)⟩
  have rows := Text.rows_items
    (fun part => page.margin (level + 1) ++ layout page (level + 1) part)
    (Text.closing (closers + 1)) init last (page.margin level ++ ("(" ++ e.head))
  rw [← split, Text.rows_of_unbroken _ front, ← Text.closing_succ] at rows
  rw [layout_of_broken page level e hasParts broken, ← Text.closing_succ, Text.closing_zero]
  simpa only [List.append_assoc, List.append_nil, List.cons_append, List.nil_append] using rows

/-- Every row of an expression at its place on a page is a row of the whole. -/
theorem rowOf_of_mem (page : Page) (whole e : Expr) (level closers : Nat)
    (indent : 0 ≤ page.indent) (placed : Placed page whole level closers e)
    (wellFormed : e.WellFormed) (row : Text)
    (member : row ∈ Text.rows (page.margin level ++ layout page level e ++ Text.closing closers)) :
    RowOf page whole row := by
  induction e using parts_induction generalizing level closers with
  | step e ih =>
      have alone := rows_placed page level closers _ (unbroken_source e wellFormed)
      by_cases noParts : e.parts = []
      · rw [layout_atom page level e wellFormed noParts, alone, List.mem_singleton] at member
        rw [member]
        have named := isName_atom e wellFormed noParts
        exact rowOf_atom page whole e level closers placed noParts named
      cases fits : page.fits level e.source with
      | true =>
          rw [layout_of_fits page level e noParts fits, alone, List.mem_singleton] at member
          rw [member]
          exact rowOf_form page whole e level closers placed wellFormed noParts indent fits
      | false =>
          obtain ⟨init, last, split⟩ : ∃ init last, e.parts = init ++ [last] :=
            ⟨_, _, (List.dropLast_append_getLast noParts).symm⟩
          have inner (part : Expr) (isPart : part ∈ e.parts) (closers : Nat) :=
            fun placed => ih part isPart (level + 1) closers placed
              (wellFormed_of_mem_parts e part wellFormed isPart)
          rw [rows_of_broken page level closers e noParts fits init last split] at member
          rcases List.mem_append.mp member with before | inLast
          · rcases List.mem_cons.mp before with first | inInit
            · rw [first]
              exact rowOf_opening page whole e level closers placed noParts
            · obtain ⟨part, among, inPart⟩ := List.mem_flatMap.mp inInit
              have isPart : part ∈ e.parts := by
                rw [split]
                exact List.mem_append_left _ among
              exact inner part isPart 0
                (.inner level closers e part init last placed fits split among) inPart
          · have isPart : last ∈ e.parts := by
              rw [split]
              exact List.mem_append_right _ List.mem_cons_self
            exact inner last isPart (closers + 1)
              (.last level closers e init last placed fits split) inLast

/-- On a page of any width and of an indent that is not negative, every row of what was read from a
text and built, in whatever room, holds a whole form, which fits the width but for the closing
parentheses of the forms that end with it, or it cannot be broken: it is an atom with such parentheses
or the opening of a form. -/
theorem rows_keep_to_width (room : Nat) (t : Text) (d : Datum) (e : Expr) (page : Page)
    (run : Datum.read t = .ok d) (built : build room d = .ok e) (indent : 0 ≤ page.indent)
    (row : Text) (member : row ∈ Text.rows (e.layout page 0)) : RowOf page e row := by
  have wellFormed := wellFormed_of_build room d e (Datum.readable_of_read t d run) built
  have margin : page.margin 0 = [] := by
    rw [Page.margin, Int.natCast_zero, Int.zero_mul, Int.toNat_zero, List.replicate_zero]
  refine rowOf_of_mem page e e 0 0 indent .whole wellFormed row ?_
  rwa [margin, Text.closing_zero, List.nil_append, List.append_nil]

/-! ## A sum in a sum -/

/-- The expression `(+ 1 (+ 2 3))`. -/
def sumInSum : Expr :=
  .application Arithmetic.add.symbol
    [.literal (.int 1), .application Arithmetic.add.symbol [.literal (.int 2), .literal (.int 3)]]

theorem read_sumInSum : Datum.read "(+ 1 (+ 2 3))" = .ok sumInSum.toDatum := by
  have formed : sumInSum.WellFormed :=
    ⟨⟨.arithmetic .add, rfl, rfl⟩, rfl, ⟨⟨.arithmetic .add, rfl, rfl⟩, rfl, rfl, trivial⟩, trivial⟩
  have shown : sumInSum.source = Text.ofString "(+ 1 (+ 2 3))" := by decide +kernel
  rw [← shown]
  exact read_of_writes _ _ (writes_source sumInSum formed)

/-- Its inner sum fits a page of nine columns, but the row it stands in ends in two parentheses. -/
theorem inner_sum_keeps_to_width :
    Datum.read "(+ 1 (+ 2 3))" = .ok sumInSum.toDatum ∧ build fullRoom sumInSum.toDatum = .ok sumInSum ∧
      RowOf ⟨2, 9⟩ sumInSum "  (+ 2 3))" := by
  have member : Text.ofString "  (+ 2 3))" ∈ Text.rows (sumInSum.layout ⟨2, 9⟩ 0) := by
    decide +kernel
  exact ⟨read_sumInSum, rfl,
    rows_keep_to_width fullRoom _ _ sumInSum ⟨2, 9⟩ read_sumInSum rfl (by decide) _ member⟩

/-- So a row that holds a whole form is wider than the page. -/
theorem inner_sum_runs_over_width :
    ∃ d e row, Datum.read "(+ 1 (+ 2 3))" = .ok d ∧ build fullRoom d = .ok e ∧
      row ∈ Text.rows (e.layout ⟨2, 9⟩ 0) ∧ row.HoldsForm ∧ (9 : Int) < row.length := by
  have member : Text.ofString "  (+ 2 3))" ∈ Text.rows (sumInSum.layout ⟨2, 9⟩ 0) := by
    decide +kernel
  have inside : Text.Balanced "+ 2 3" := .plain _ (by decide) (by decide)
  have holds : Text.HoldsForm "  (+ 2 3))" :=
    ⟨Text.ofString "  ", _, Text.ofString ")", rfl, inside⟩
  exact ⟨_, sumInSum, _, read_sumInSum, rfl, member, holds, by decide⟩

end Expr

end ParenCalc
