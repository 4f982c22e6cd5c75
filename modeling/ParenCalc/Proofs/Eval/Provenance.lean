import ParenCalc.Proofs.Eval.Outcomes
/-!
# Where the words of a failure come from

A failure quotes the text that it is about.  Whatever is named or quoted in a failure of reading, of
building or of evaluating a text is a part of the text, and so is every name that the text defines.
-/
set_option autoImplicit false

namespace ParenCalc

namespace Datum

mutual

/-- The names and the foreign texts in a datum. -/
def texts : Datum → List Text
  | .number _ => []
  | .symbol s => [s.name]
  | .list items => textsOfItems items
  | .foreign (.text t) => [t]
  | .foreign _ => []

def textsOfItems : List Datum → List Text
  | [] => []
  | d :: rest => d.texts ++ textsOfItems rest

end

theorem mem_textsOfItems (items : List Datum) (t : Text) :
    t ∈ textsOfItems items ↔ ∃ d ∈ items, t ∈ d.texts := by
  induction items with
  | nil => simp [textsOfItems]
  | cons d rest ih => simp [textsOfItems, ih]

/-- A name that a datum defines is one of its texts. -/
theorem name_mem_texts (x : Symbol) (d : Datum) (defines : d.Defines x) : x.name ∈ d.texts := by
  induction defines with
  | here value => simp [texts, textsOfItems]
  | within items d member inside ih => exact (mem_textsOfItems items x.name).mpr ⟨d, member, ih⟩

end Datum

/-- The texts that a refusal of a text is made of. -/
def Malformed.texts : Malformed → List Text
  | .unexpected _ c => [[c]]
  | .badNumber t | .empty t | .trailing t | .tooDeep t => [t]
  | .badName d | .headNoSymbol d | .unbuildable d | .defineTarget d | .undefinable d => d.texts
  | .unknownHead s | .reserved s => [s.name]
  | .unopened | .unclosed | .unsupportedLiteral _ | .emptyForm | .defineShape | .condShape
  | .arity _ _ => []

/-- Nothing but what is as told is quoted in a result, or in the refusal in its place. -/
def Quotes {α : Type} (p : Text → Prop) (texts : α → List Text) : Except Malformed α → Prop
  | .ok a => ∀ t ∈ texts a, p t
  | .error cause => ∀ t ∈ cause.texts, p t

/-- Nothing but what is as told is in the tokens of a scan and in its fault. -/
structure Scan.Holds (p : Text → Prop) (s : Scan) : Prop where
  tokens : ∀ token ∈ s.tokens, p token.lexeme
  fault : ∀ cause, s.fault = some cause → ∀ t ∈ cause.texts, p t

/-! ## Reading -/

section Reading

variable {p : Text → Prop}

theorem Scan.holds_nothing : Scan.Holds p ⟨[], none⟩ where
  tokens := List.forall_mem_nil _
  fault := fun _ none => by cases none

theorem Scan.holds_later (token : Token) (rest : List Token) (fault : Option Malformed)
    (holds : Scan.Holds p ⟨token :: rest, fault⟩) : Scan.Holds p ⟨rest, fault⟩ :=
  ⟨fun other member => holds.tokens other (List.mem_cons_of_mem token member), holds.fault⟩

theorem Datum.quotes_ofAtom (name : Text) (own : p name) : Quotes p texts (ofAtom name) := by
  unfold ofAtom
  split
  · split
    · exact List.forall_mem_nil _
    · exact List.forall_mem_singleton.mpr own
  · split
    · rename_i s named
      unfold Symbol.ofText? at named
      split at named
      · rw [← Option.some.inj named]
        exact List.forall_mem_singleton.mpr own
      · cases named
    · exact List.forall_mem_singleton.mpr own

theorem Datum.forall_texts_reverse (items : List Datum)
    (own : ∀ d ∈ items, ∀ t ∈ d.texts, p t) : ∀ t ∈ (Datum.list items.reverse).texts, p t := by
  intro t member
  obtain ⟨d, inItems, inDatum⟩ := (mem_textsOfItems _ t).mp member
  exact own d (List.mem_reverse.mp inItems) t inDatum

/-- What is read inside lists is made of the data that are read already and of tokens. -/
theorem Scan.quotes_collect (fault : Option Malformed) (done : List Datum)
    (outer : List (List Datum)) (tokens : List Token) (holds : Scan.Holds p ⟨tokens, fault⟩)
    (doneOwn : ∀ d ∈ done, ∀ t ∈ d.texts, p t)
    (outerOwn : ∀ items ∈ outer, ∀ d ∈ items, ∀ t ∈ d.texts, p t) :
    Quotes p Datum.texts (collect fault done outer tokens).1 ∧
      (collect fault done outer tokens).2.Holds p := by
  induction tokens generalizing done outer with
  | nil =>
      refine ⟨?_, holds_nothing⟩
      cases fault with
      | none => exact List.forall_mem_nil _
      | some cause => exact holds.fault cause rfl
  | cons token rest ih =>
      have later := holds_later token rest fault holds
      cases token with
      | opening =>
          exact ih [] (done :: outer) later (List.forall_mem_nil _)
            (List.forall_mem_cons.mpr ⟨doneOwn, outerOwn⟩)
      | closing =>
          have whole := Datum.forall_texts_reverse done doneOwn
          cases outer with
          | nil => exact ⟨whole, later⟩
          | cons above outer =>
              obtain ⟨aboveOwn, othersOwn⟩ := List.forall_mem_cons.mp outerOwn
              exact ih (.list done.reverse :: above) outer later
                (List.forall_mem_cons.mpr ⟨whole, aboveOwn⟩) othersOwn
      | atom name =>
          have atom := Datum.quotes_ofAtom name (holds.tokens (.atom name) List.mem_cons_self)
          unfold collect
          cases value : Datum.ofAtom name with
          | error cause =>
              rw [value] at atom
              exact ⟨atom, later⟩
          | ok d =>
              rw [value] at atom
              exact ih (d :: done) outer later (List.forall_mem_cons.mpr ⟨atom, doneOwn⟩) outerOwn

/-- The texts of a datum, if there is one. -/
def Datum.textsOf? (found : Option Datum) : List Text := found.elim [] texts

theorem Datum.quotes_some (result : Except Malformed Datum) (quotes : Quotes p texts result) :
    Quotes p textsOf? (result.map some) := by
  cases result <;> exact quotes

/-- What a step of reading yields is quoted from the scan, and so is what it leaves. -/
theorem Scan.quotes_next (s : Scan) (holds : s.Holds p) :
    Quotes p Datum.textsOf? s.next.1 ∧ s.next.2.Holds p := by
  obtain ⟨tokens, fault⟩ := s
  match tokens with
  | [] =>
      cases fault with
      | none => exact ⟨List.forall_mem_nil _, holds_nothing⟩
      | some cause => exact ⟨holds.fault cause rfl, holds_nothing⟩
  | .closing :: rest => exact ⟨List.forall_mem_nil _, holds⟩
  | .atom name :: rest =>
      have atom := Datum.quotes_ofAtom name (holds.tokens (.atom name) List.mem_cons_self)
      exact ⟨Datum.quotes_some _ atom, holds_later _ rest fault holds⟩
  | .opening :: rest =>
      obtain ⟨inside, left⟩ := quotes_collect fault [] [] rest (holds_later _ rest fault holds)
        (List.forall_mem_nil _) (List.forall_mem_nil _)
      exact ⟨Datum.quotes_some _ inside, left⟩

/-- What reading a text yields is quoted from its scan; only a text without data is quoted whole. -/
theorem Datum.quotes_read (text : Text) (holds : (Scan.ofText text).Holds p) :
    read text = .error (.empty text) ∨ Quotes p texts (read text) := by
  obtain ⟨first, left⟩ := (Scan.ofText text).quotes_next holds
  unfold read
  rcases run : (Scan.ofText text).next with ⟨result, after⟩
  rw [run] at first left
  cases result with
  | error cause => exact .inr first
  | ok found =>
      cases found with
      | none => exact .inl rfl
      | some d =>
          obtain ⟨tokens, fault⟩ := after
          match tokens with
          | [] =>
              cases fault with
              | none => exact .inr first
              | some cause => exact .inr (left.fault cause rfl)
          | .closing :: rest => exact .inr (List.forall_mem_nil _)
          | .opening :: rest | .atom name :: rest =>
              exact .inr (List.forall_mem_singleton.mpr (left.tokens _ List.mem_cons_self))

end Reading

theorem Scan.holds_of_suffix (s : Scan) (rest whole : Text) (suffix : rest <:+ whole)
    (holds : s.Holds (· <:+: rest)) : s.Holds (· <:+: whole) where
  tokens := fun token member => (holds.tokens token member).trans suffix.isInfix
  fault := fun cause found t member => (holds.fault cause found t member).trans suffix.isInfix

theorem Scan.holds_cons {p : Text → Prop} (token : Token) (s : Scan) (own : p token.lexeme)
    (holds : s.Holds p) : (cons token s).Holds p :=
  ⟨List.forall_mem_cons.mpr ⟨own, holds.tokens⟩, holds.fault⟩

/-- The tokens of a text are parts of it, and so is what its scan ends with. -/
theorem Scan.holds_ofTextFrom (position : Nat) (text : Text) :
    (Scan.ofTextFrom position text).Holds (· <:+: text) := by
  have first (c : CodePoint) (rest : Text) : [c] <:+: c :: rest :=
    (List.prefix_append [c] rest).isInfix
  fun_induction Scan.ofTextFrom position text with
  | case1 position => exact holds_nothing
  | case2 position c rest blank ih => exact holds_of_suffix _ rest _ (List.suffix_cons c rest) ih
  | case3 position rest notBlank ih =>
      exact holds_of_suffix _ _ _ ((List.dropWhile_suffix _).trans (List.suffix_cons _ rest)) ih
  | case4 position rest notBlank notComment ih | case5 position rest notBlank notComment _ ih =>
      exact holds_cons _ _ (first _ rest) (holds_of_suffix _ rest _ (List.suffix_cons _ rest) ih)
  | case6 position c rest notBlank notComment notOpening notClosing isPart more ih =>
      have name : c :: more <:+: c :: rest :=
        (List.prefix_cons_inj c).mpr (List.takeWhile_prefix _) |>.isInfix
      exact holds_cons _ _ name
        (holds_of_suffix _ _ _ ((List.dropWhile_suffix _).trans (List.suffix_cons c rest)) ih)
  | case7 position c rest notBlank notComment notOpening notClosing noPart =>
      refine ⟨List.forall_mem_nil _, ?_⟩
      rintro cause found
      cases found
      exact List.forall_mem_singleton.mpr (first c rest)

theorem Datum.infix_read (text : Text) : Quotes (· <:+: text) texts (read text) := by
  rcases quotes_read text (Scan.holds_ofTextFrom 0 text) with empty | quotes
  · rw [empty]
    exact List.forall_mem_singleton.mpr (List.infix_refl text)
  · exact quotes

/-! ## Building -/

/-- The texts that a fault names or quotes. -/
def Fault.texts : Fault → List Text
  | .malformed cause => cause.texts
  | .undefined name => [name]
  | .sessionNotFound id => [id]
  | .internal (.unknownOperator name) => [name.name]
  | .arithmetic _ | .sessionLimit _ | .internal (.notExpression _) => []

def Failure.texts : Failure → List Text
  | .fault cause => cause.texts
  | .misuse _ => []

/-- A failure quotes some of these texts at most. -/
def FailsWithin {α : Type} (texts : List Text) : Except Failure α → Prop
  | .ok _ => True
  | .error failure => failure.texts ⊆ texts

theorem failsWithin_map {α β : Type} (texts : List Text) (f : α → β) (result : Except Failure α)
    (within : FailsWithin texts result) : FailsWithin texts (result.map f) := by
  cases result <;> exact within

theorem failsWithin_mono {α : Type} (texts more : List Text) (subset : texts ⊆ more)
    (result : Except Failure α) (within : FailsWithin texts result) : FailsWithin more result := by
  cases result with
  | ok a => trivial
  | error failure => exact fun t member => subset (within member)

namespace Expr

open Datum (textsOfItems)

theorem failsWithin_quiet {α : Type} (texts : List Text) (failure : Failure)
    (quiet : failure.texts = []) : FailsWithin texts (.error failure : Except Failure α) := by
  intro t member
  rw [quiet] at member
  cases member

mutual

theorem failsWithin_build (room : Nat) : ∀ d : Datum, FailsWithin d.texts (build room d)
  | .number n | .symbol s => by
      unfold build
      split
      · exact failsWithin_quiet _ _ rfl
      · trivial
  | .foreign v => by
      unfold build
      split
      · exact failsWithin_quiet _ _ rfl
      · cases v with
        | truth b => exact failsWithin_quiet _ _ rfl
        | nothing | text t => exact List.Subset.refl _
  | .list [] => by
      unfold build
      split <;> exact failsWithin_quiet _ _ rfl
  | .list (.symbol head :: tail) => by
      have inTail : textsOfItems tail ⊆ (Datum.list (.symbol head :: tail)).texts :=
        List.subset_cons_self _ _
      have definition := failsWithin_buildDefinition (room - 2) tail
      have conditional := failsWithin_buildConditional (room - 2) tail
      have parts := failsWithin_buildAll (room - 3) tail
      unfold build
      split
      · exact failsWithin_quiet _ _ rfl
      · dsimp only
        split
        · exact failsWithin_mono _ _ inTail _ definition
        · split
          · exact failsWithin_mono _ _ inTail _ conditional
          · split
            · intro t member
              rw [List.mem_singleton.mp member]
              exact List.mem_cons_self
            · split
              · exact failsWithin_map _ _ _ (failsWithin_mono _ _ inTail _ parts)
              · exact failsWithin_quiet _ _ rfl
  | .list (.number _ :: _) | .list (.list _ :: _) | .list (.foreign _ :: _) => by
      unfold build
      split
      · exact failsWithin_quiet _ _ rfl
      · dsimp only
        split
        · exact List.subset_append_left _ _
        · exact failsWithin_quiet _ _ rfl

theorem failsWithin_buildDefinition (room : Nat) :
    ∀ tail : List Datum, FailsWithin (textsOfItems tail) (buildDefinition room tail)
  | [.symbol name, value] => by
      have built := failsWithin_build room value
      unfold buildDefinition
      split
      · intro t member
        rw [List.mem_singleton.mp member]
        exact List.mem_cons_self
      · refine failsWithin_map _ _ _ (failsWithin_mono _ _ ?_ _ built)
        exact fun t member => (Datum.mem_textsOfItems _ t).mpr ⟨value, by simp, member⟩
  | [.number _, _] | [.list _, _] | [.foreign _, _] => by
      unfold buildDefinition
      split
      · exact List.subset_append_left _ _
      · exact failsWithin_quiet _ _ rfl
  | [] | [_] | _ :: _ :: _ :: _ => by
      rw [buildDefinition_of_length room _ (by simp)]
      exact failsWithin_quiet _ _ rfl

theorem failsWithin_buildConditional (room : Nat) :
    ∀ tail : List Datum, FailsWithin (textsOfItems tail) (buildConditional room tail)
  | [test, yes, no] => by
      have part (d : Datum) (member : d ∈ [test, yes, no]) : d.texts ⊆ textsOfItems [test, yes, no] :=
        fun t inPart => (Datum.mem_textsOfItems _ t).mpr ⟨d, member, inPart⟩
      have testBuilt := failsWithin_mono _ _ (part test (by simp)) _ (failsWithin_build room test)
      have yesBuilt := failsWithin_mono _ _ (part yes (by simp)) _ (failsWithin_build room yes)
      have noBuilt := failsWithin_mono _ _ (part no (by simp)) _ (failsWithin_build room no)
      unfold buildConditional
      cases testResult : build room test with
      | error failure =>
          rw [testResult] at testBuilt
          exact testBuilt
      | ok testExpr =>
          cases yesResult : build room yes with
          | error failure =>
              rw [yesResult] at yesBuilt
              exact yesBuilt
          | ok yesExpr => exact failsWithin_map _ _ _ noBuilt
  | [] | [_] | [_, _] | _ :: _ :: _ :: _ :: _ => by
      rw [buildConditional_of_length room _ (by simp)]
      exact failsWithin_quiet _ _ rfl

theorem failsWithin_buildAll (room : Nat) :
    ∀ data : List Datum, FailsWithin (textsOfItems data) (buildAll room data)
  | [] => trivial
  | d :: rest => by
      have built := failsWithin_mono _ (textsOfItems (d :: rest)) (List.subset_append_left _ _) _
        (failsWithin_build room d)
      have restBuilt := failsWithin_mono _ (textsOfItems (d :: rest))
        (List.subset_append_right _ _) _ (failsWithin_buildAll room rest)
      unfold buildAll
      cases result : build room d with
      | error failure =>
          rw [result] at built
          exact built
      | ok e => exact failsWithin_map _ _ _ restBuilt

end

/-! ## Evaluation -/

theorem failsWithin_apply (texts : List Text) (op : Operator) (operands : List Number) :
    FailsWithin texts (op.apply operands) := by
  cases op with
  | arithmetic op =>
      match operands with
      | [] => exact failsWithin_quiet _ _ rfl
      | a :: rest =>
          show FailsWithin texts ((op.fold (a :: rest) a rest).mapError _)
          cases op.fold (a :: rest) a rest with
          | ok n => trivial
          | error cause => exact failsWithin_quiet _ _ rfl
  | comparison op =>
      match operands with
      | [a, b] => trivial
      | [] | [_] | _ :: _ :: _ :: _ => exact failsWithin_quiet _ _ rfl

mutual

theorem failsWithin_eval : ∀ (e : Expr) (s : Scope), FailsWithin e.toDatum.texts (e.eval s).1
  | .literal n, s => by
      unfold eval
      trivial
  | .reference x, s => by
      unfold eval
      split
      · trivial
      · exact List.Subset.refl _
  | .definition x e, s => by
      have inner := failsWithin_mono _ (Expr.definition x e).toDatum.texts
        (fun t member => (Datum.mem_textsOfItems _ t).mpr ⟨e.toDatum, by simp, member⟩) _
        (failsWithin_eval e s)
      unfold eval
      rcases run : e.eval s with ⟨result, after⟩
      rw [run] at inner
      cases result with
      | ok value => trivial
      | error failure => exact inner
  | .conditional test yes no, s => by
      have part (e : Expr) (member : e.toDatum ∈ [test.toDatum, yes.toDatum, no.toDatum])
          (s : Scope) (within : FailsWithin e.toDatum.texts (e.eval s).1) :
          FailsWithin (Expr.conditional test yes no).toDatum.texts (e.eval s).1 :=
        failsWithin_mono _ _ (fun t inPart => (Datum.mem_textsOfItems _ t).mpr
          ⟨e.toDatum, List.mem_cons_of_mem _ member, inPart⟩) _ within
      have tested := part test (by simp) s (failsWithin_eval test s)
      unfold eval
      rcases run : test.eval s with ⟨result, after⟩
      rw [run] at tested
      cases result with
      | error failure => exact tested
      | ok value =>
          dsimp only
          split
          · exact part yes (by simp) after (failsWithin_eval yes after)
          · exact part no (by simp) after (failsWithin_eval no after)
  | .application x arguments, s => by
      have inner := failsWithin_mono _ (Expr.application x arguments).toDatum.texts
        (List.subset_cons_self _ _) _ (failsWithin_evalAll arguments s)
      unfold eval
      split
      · intro t member
        rw [List.mem_singleton.mp member]
        exact List.mem_cons_self
      · rename_i op found
        rcases run : evalAll arguments s with ⟨result, after⟩
        rw [run] at inner
        cases result with
        | error failure => exact inner
        | ok operands => exact failsWithin_apply _ op operands
  | .alien d, s => by
      unfold eval
      exact failsWithin_quiet _ _ rfl

theorem failsWithin_evalAll : ∀ (arguments : List Expr) (s : Scope),
    FailsWithin (textsOfItems (toData arguments)) (evalAll arguments s).1
  | [], s => by
      unfold evalAll
      trivial
  | e :: rest, s => by
      have first := failsWithin_mono _ (textsOfItems (toData (e :: rest)))
        (List.subset_append_left _ _) _ (failsWithin_eval e s)
      unfold evalAll
      rcases run : e.eval s with ⟨result, between⟩
      rw [run] at first
      cases result with
      | error failure => exact first
      | ok value =>
          have later := failsWithin_mono _ (textsOfItems (toData (e :: rest)))
            (List.subset_append_right _ _) _ (failsWithin_evalAll rest between)
          dsimp only
          rcases restRun : evalAll rest between with ⟨restResult, after⟩
          rw [restRun] at later
          cases restResult with
          | error failure => exact later
          | ok values => trivial

end

end Expr

/-! ## Texts -/

/-- A name that a text defines is a part of the text. -/
theorem Text.infix_of_defines (x : Symbol) (text : Text) (defines : text.Defines x) :
    x.name <:+: text := by
  obtain ⟨d, read, inside⟩ := defines
  have quotes := Datum.infix_read text
  rw [read] at quotes
  exact quotes x.name (Datum.name_mem_texts x d inside)

/-- The faults that quote a text as a whole, or its beginning. -/
def Malformed.IsOfWhole (text : Text) (cause : Malformed) : Prop :=
  cause = .empty text ∨ cause = .tooDeep text.excerpt

theorem Failure.inText_cases (text : Text) (failure : Failure) :
    (∃ cause, failure.inText text = .fault (.malformed cause) ∧ cause.IsOfWhole text) ∨
      failure.inText text = failure := by
  unfold inText
  split
  · exact .inl ⟨_, rfl, .inr rfl⟩
  · exact .inr rfl

/-- What a failure of a text quotes is as its scan is, unless it quotes the text as a whole. -/
theorem quotes_interpret {p : Text → Prop} (room : Nat) (text : Text)
    (holds : (Scan.ofText text).Holds p) (s : Scope) (failure : Failure)
    (failed : (interpret room text s).1 = .error failure) :
    (∃ cause, failure = .fault (.malformed cause) ∧ cause.IsOfWhole text) ∨
      ∀ t ∈ failure.texts, p t := by
  have quotes := Datum.quotes_read text holds
  unfold interpret at failed
  cases read : Datum.read text with
  | error cause =>
      rw [read] at failed quotes
      cases failed
      rcases quotes with empty | quotes
      · exact .inl ⟨cause, rfl, .inl (Except.error.inj empty)⟩
      · exact .inr quotes
  | ok d =>
      rw [read] at failed quotes
      have own : ∀ t ∈ d.texts, p t := quotes.resolve_left (by simp)
      have built := Expr.failsWithin_build room d
      dsimp only [Datum.eval] at failed
      cases result : Expr.build room d with
      | error refusal =>
          rw [result] at failed built
          cases failed
          rcases refusal.inText_cases text with whole | same
          · exact .inl whole
          · rw [same]
            exact .inr fun t member => own t (built member)
      | ok e =>
          have same : e.toDatum = d := Expr.toDatum_of_build room d e result
          have within := e.failsWithin_eval s
          rw [result] at failed
          change (e.eval s).1 = _ at failed
          rw [failed, same] at within
          exact .inr fun t member => own t (within member)

/-- Whatever a failure of a text quotes is a part of the text. -/
theorem infix_of_interpret (room : Nat) (text : Text) (s : Scope) (failure : Failure)
    (failed : (interpret room text s).1 = .error failure) :
    ∀ t ∈ failure.texts, t <:+: text := by
  rcases quotes_interpret room text (Scan.holds_ofTextFrom 0 text) s failure failed with whole | parts
  · obtain ⟨cause, rfl, rfl | rfl⟩ := whole
    · exact List.forall_mem_singleton.mpr (List.infix_refl text)
    · exact List.forall_mem_singleton.mpr (List.take_prefix 80 text).isInfix
  · exact parts

end ParenCalc
