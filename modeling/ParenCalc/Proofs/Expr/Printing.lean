import ParenCalc.Expr.Print
import ParenCalc.Proofs.Datum.Writing
import ParenCalc.Proofs.Expr.WellFormed
import ParenCalc.Proofs.Number.Literal
/-!
# Printing and reading

A well-formed expression is printed as a text that writes its datum, on one line as well as on a
page of any width and indent.  So what was read from a text and built is printed as a text that
reads as the same datum and builds the same expression.
-/
set_option autoImplicit false

namespace ParenCalc

namespace Expr

/-! ## Atoms and heads -/

theorem writes_literal (n : Number) (admissible : n.isAdmissible = true) :
    Writes n.literal (.number n) :=
  writes_atom n.literal (.number n) (Number.isName_literal n admissible)
    (Datum.ofAtom_literal n admissible)

theorem writes_symbol (s : Symbol) (notNumeric : Text.looksNumeric s.name = false) :
    Writes s.name (.symbol s) := by
  refine writes_atom s.name (.symbol s) s.isName ?_
  simp [Datum.ofAtom, notNumeric, Symbol.ofText?, s.isName]

theorem looksNumeric_operator (x : Symbol) (op : Operator)
    (found : Operator.ofSymbol? x = some op) :
    Text.looksNumeric x.name = false := by
  rw [← Operator.symbol_of_ofSymbol? x op found]
  rcases op with op | op <;> cases op <;> decide

theorem blank_space : ∀ c ∈ [CodePoint.ofChar ' '], c.isBlank = true := by decide

theorem writesAll_definition (name : Symbol) (value : Expr)
    (notNumeric : Text.looksNumeric name.name = false) :
    WritesAll (head (.definition name value)) [.symbol .define, .symbol name] := by
  have keyword := writesAll_of_writes _ _ (writes_symbol .define (by decide))
  obtain ⟨rest, stops⟩ := writesAll_items [CodePoint.ofChar ' '] blank_space (by simp) [name.name]
    [.symbol name] (.cons (writes_symbol name notNumeric) .nil)
  have whole := writesAll_append _ _ _ _ keyword rest stops
  rwa [List.flatMap_cons, List.flatMap_nil, List.append_nil] at whole

theorem writesAll_conditional (test yes no : Expr) :
    WritesAll (head (.conditional test yes no)) [.symbol .cond] :=
  writesAll_of_writes _ _ (writes_symbol .cond (by decide))

theorem writesAll_application (x : Symbol) (arguments : List Expr) (op : Operator)
    (found : Operator.ofSymbol? x = some op) :
    WritesAll (head (.application x arguments)) [.symbol x] :=
  writesAll_of_writes _ _ (writes_symbol x (looksNumeric_operator x op found))

/-! ## Forms -/

section Form

variable (front : Text) (frontItems : List Datum) (written : WritesAll front frontItems)
  (parts : List Text) (items : List Datum) (partsWritten : List.Forall₂ Writes parts items)

include written partsWritten

theorem writes_joinedForm : Writes (joinedForm front parts) (.list (frontItems ++ items)) :=
  writes_list [CodePoint.ofChar ' '] blank_space (by simp) front frontItems written parts items
    partsWritten

theorem writes_form (page : Page) (level : Nat) (flat : Text)
    (flatWritten : Writes flat (.list (frontItems ++ items))) :
    Writes (page.form level front flat parts) (.list (frontItems ++ items)) := by
  unfold Page.form
  split
  · exact flatWritten
  · refine writes_list (CodePoint.ofChar '\n' :: page.margin (level + 1)) ?_ (by simp) front
      frontItems written parts items partsWritten
    intro c member
    rcases List.mem_cons.mp member with lineEnd | inMargin
    · rw [lineEnd]
      decide
    · rw [List.eq_of_mem_replicate inMargin]
      decide

end Form

/-! ## Expressions on one line -/

mutual

theorem writes_source : ∀ e : Expr, e.WellFormed → Writes e.source e.toDatum
  | .literal n, wellFormed => writes_literal n wellFormed
  | .reference x, wellFormed => writes_symbol x wellFormed
  | .definition x value, wellFormed => by
      have part := writes_source value wellFormed.2
      rw [source]
      exact writes_joinedForm _ _ (writesAll_definition x value wellFormed.1.2) _ _
        (.cons part .nil)
  | .conditional test yes no, wellFormed => by
      have testPart := writes_source test wellFormed.1
      have yesPart := writes_source yes wellFormed.2.1
      have noPart := writes_source no wellFormed.2.2
      rw [source]
      exact writes_joinedForm _ _ (writesAll_conditional test yes no) _ _
        (.cons testPart (.cons yesPart (.cons noPart .nil)))
  | .application x arguments, wellFormed => by
      obtain ⟨⟨op, found, -⟩, partsFormed⟩ := wellFormed
      have parts := writes_sources arguments partsFormed
      rw [source]
      exact writes_joinedForm _ _ (writesAll_application x arguments op found) _ _ parts
  | .alien _, wellFormed => False.elim wellFormed

theorem writes_sources :
    ∀ arguments : List Expr, AllWellFormed arguments →
      List.Forall₂ Writes (sources arguments) (toData arguments)
  | [], _ => .nil
  | e :: rest, wellFormed =>
      .cons (writes_source e wellFormed.1) (writes_sources rest wellFormed.2)

end

/-! ## Expressions on a page -/

mutual

theorem writes_layout (page : Page) :
    ∀ (e : Expr) (level : Nat), e.WellFormed → Writes (layout page level e) e.toDatum
  | .literal n, _, wellFormed => writes_literal n wellFormed
  | .reference x, _, wellFormed => writes_symbol x wellFormed
  | .definition x value, level, wellFormed => by
      have part := writes_layout page value (level + 1) wellFormed.2
      have flat := writes_source (.definition x value) wellFormed
      rw [layout]
      exact writes_form _ _ (writesAll_definition x value wellFormed.1.2) _ _ (.cons part .nil)
        page level _ flat
  | .conditional test yes no, level, wellFormed => by
      have testPart := writes_layout page test (level + 1) wellFormed.1
      have yesPart := writes_layout page yes (level + 1) wellFormed.2.1
      have noPart := writes_layout page no (level + 1) wellFormed.2.2
      have flat := writes_source (.conditional test yes no) wellFormed
      rw [layout]
      exact writes_form _ _ (writesAll_conditional test yes no) _ _
        (.cons testPart (.cons yesPart (.cons noPart .nil))) page level _ flat
  | .application x arguments, level, wellFormed => by
      have flat := writes_source (.application x arguments) wellFormed
      obtain ⟨⟨op, found, -⟩, partsFormed⟩ := wellFormed
      have parts := writes_layouts page arguments (level + 1) partsFormed
      rw [layout]
      exact writes_form _ _ (writesAll_application x arguments op found) _ _ parts page level _ flat
  | .alien _, _, wellFormed => False.elim wellFormed

theorem writes_layouts (page : Page) :
    ∀ (arguments : List Expr) (level : Nat), AllWellFormed arguments →
      List.Forall₂ Writes (layouts page level arguments) (toData arguments)
  | [], _, _ => .nil
  | e :: rest, level, wellFormed =>
      .cons (writes_layout page e level wellFormed.1) (writes_layouts page rest level wellFormed.2)

end

mutual

theorem alien?_of_wellFormed : ∀ e : Expr, e.WellFormed → e.alien? = none
  | .literal _, _ => rfl
  | .reference _, _ => rfl
  | .definition _ value, wellFormed => alien?_of_wellFormed value wellFormed.2
  | .conditional test yes no, wellFormed => by
      rw [alien?, alien?_of_wellFormed test wellFormed.1, alien?_of_wellFormed yes wellFormed.2.1,
        alien?_of_wellFormed no wellFormed.2.2]
      rfl
  | .application _ arguments, wellFormed => alienAmong?_of_wellFormed arguments wellFormed.2
  | .alien _, wellFormed => False.elim wellFormed

theorem alienAmong?_of_wellFormed :
    ∀ arguments : List Expr, AllWellFormed arguments → alienAmong? arguments = none
  | [], _ => rfl
  | e :: rest, wellFormed => by
      rw [alienAmong?, alien?_of_wellFormed e wellFormed.1,
        alienAmong?_of_wellFormed rest wellFormed.2]
      rfl

end

/-- What was read from a text and built, in whatever room, is printed without fail, on one line and on
every page, and either text reads as the same datum and builds the same expression there. -/
theorem read_printed (room : Nat) (text : Text) (d : Datum) (e : Expr) (page : Page)
    (run : Datum.read text = .ok d) (built : build room d = .ok e) :
    ∀ t, t = e.source ∨ t = e.layout page 0 →
      e.printed t = .ok t ∧ Datum.read t = .ok d ∧
        ∃ again, Datum.read t = .ok again ∧ build room again = .ok e := by
  have wellFormed := wellFormed_of_build room d e (Datum.readable_of_read text d run) built
  have same := toDatum_of_build room d e built
  intro t shape
  have written : Writes t d := by
    rw [← same]
    rcases shape with flat | paged
    · rw [flat]
      exact writes_source e wellFormed
    · rw [paged]
      exact writes_layout page e 0 wellFormed
  have back := read_of_writes t d written
  refine ⟨?_, back, d, back, built⟩
  rw [printed, alien?_of_wellFormed e wellFormed]

/-- A minus zero after a comment, printed on a page too narrow for it. -/
theorem read_printed_minus_zero :
    Datum.read "; note\n(define zero -0.0)" =
        .ok (.list [.symbol .define, .symbol ⟨"zero", by decide⟩, .number (.float (.zero true))]) ∧
      build fullRoom (.list [.symbol .define, .symbol ⟨"zero", by decide⟩,
          .number (.float (.zero true))]) =
        .ok (.definition ⟨"zero", by decide⟩ (.literal (.float (.zero true)))) ∧
      Datum.read "(define zero\n   -0.0)" =
        .ok (.list [.symbol .define, .symbol ⟨"zero", by decide⟩, .number (.float (.zero true))]) := by
  have written : (Number.float (.zero true)).literal = Text.ofString "-0.0" := by decide +kernel
  have value := Datum.ofAtom_literal (.float (.zero true)) rfl
  rw [written] at value
  have scanned : Scan.ofText "; note\n(define zero -0.0)" =
      ⟨[.opening, .atom "define", .atom "zero", .atom "-0.0", .closing], none⟩ :=
    Scan.eq_of_tokens _ _ (by decide +kernel) (Option.isNone_iff_eq_none.mp (by decide +kernel))
  have rendered : RendersAll [.atom "define", .atom "zero", .atom "-0.0"]
      [.symbol .define, .symbol ⟨"zero", by decide⟩, .number (.float (.zero true))] :=
    .cons [_] _ _ _ (.atom _ _ rfl)
      (.cons [_] _ _ _ (.atom _ _ rfl) (.cons [_] _ _ _ (.atom _ _ value) .nil))
  have run := Datum.read_of_scan _ _ _ scanned (.list _ _ rendered)
  have broken : Text.ofString "(define zero\n   -0.0)" =
      layout ⟨3, 5⟩ 0 (.definition ⟨"zero", by decide⟩ (.literal (.float (.zero true)))) := by
    decide +kernel
  exact ⟨run, rfl, (read_printed fullRoom _ _ _ ⟨3, 5⟩ run rfl _ (.inr broken)).2.1⟩

end Expr

end ParenCalc
