import Mathlib.Data.Prod.Basic
import ParenCalc.Proofs.Eval.Outcomes
import ParenCalc.Proofs.Eval.Sequences
import ParenCalc.Proofs.Expr.Printing
import ParenCalc.Proofs.Expr.Room
/-!
# Batches of texts

Evaluating all forms of a text comes to the same as evaluating them one by one: a text behind a line
end goes on where the text before it has come to, a text with one form is evaluated as by itself, and
texts joined by line ends are evaluated in turn, up to the first failure.

There is one exception, at the edge of the room for building.  A single form is built with one unit
less than all forms of a text are, so a text that takes exactly this unit more is too deep by itself.
-/
set_option autoImplicit false

namespace ParenCalc

/-! ## The edge of the room -/

/-- A text that is too deep for the room, and with one unit more is built. -/
def Text.Outgrows (room : Nat) (text : Text) : Prop :=
  ∃ d e, Datum.read text = .ok d ∧ Expr.build room d = .error (.misuse .noRoom) ∧
    Expr.build (room + 1) d = .ok e

theorem depth_of_outgrows (room : Nat) (text : Text) (d : Datum) (read : Datum.read text = .ok d)
    (outgrown : text.Outgrows room) : room ≤ 3 * d.depth := by
  obtain ⟨other, e, otherRead, lack, -⟩ := outgrown
  obtain rfl : d = other := Except.ok.inj (read.symm.trans otherRead)
  exact Expr.depth_of_noRoom room d lack

theorem interpret_of_outgrows (room : Nat) (text : Text) (s : Scope)
    (outgrown : text.Outgrows room) :
    interpret room text s = (.error (.fault (.malformed (.tooDeep text.excerpt))), s) := by
  obtain ⟨d, e, read, lack, -⟩ := outgrown
  rw [interpret_of_read room text d s read, Datum.eval, lack]
  rfl

/-- One unit more makes a difference to the texts that outgrow the room and to no others. -/
theorem endsAlike_interpret_succ (room : Nat) (text : Text) (s : Scope) :
    text.Outgrows room ∨ EndsAlike (interpret room text s) (interpret (room + 1) text s) := by
  cases read : Datum.read text with
  | error cause =>
      refine .inr ?_
      rw [interpret, interpret, read]
      exact .refl _
  | ok d =>
      rw [interpret_of_read room text d s read, interpret_of_read (room + 1) text d s read,
        Datum.eval, Datum.eval]
      rcases Expr.widens_build room (room + 1) (Nat.le_succ room) d with lack | same
      · cases wide : Expr.build (room + 1) d with
        | ok e => exact .inl ⟨d, e, read, lack, wide⟩
        | error failure =>
            obtain ⟨cause, refused⟩ :=
              failure.malformed_of_inText text (Expr.isRefusal_of_build (room + 1) d failure wide)
            refine .inr ?_
            rw [lack]
            dsimp only
            rw [refused]
            exact .failure _ _ s (Failure.akin_malformed _ cause)
      · rw [same]
        exact .inr (.refl _)

/-! ## Batches are stepwise -/

/-- Texts evaluated one after another, each from the state that the one before it has left, up to the
first failure. -/
def evalInTurn {σ : Type} (one : Text → σ → Except Failure Number × σ) :
    List Text → σ → Except Failure (List Number) × σ
  | [], a => (.ok [], a)
  | text :: rest, a =>
    match one text a with
    | (.error failure, after) => (.error failure, after)
    | (.ok value, between) => thenMap (value :: ·) (evalInTurn one rest between)

/-- The evaluation of texts in turn gets to one that outgrows the room. -/
def MeetsOutgrown {σ : Type} (room : Nat) (one : Text → σ → Except Failure Number × σ)
    (texts : List Text) (a : σ) : Prop :=
  ∃ before text after values between, texts = before ++ text :: after ∧
    evalInTurn one before a = (.ok values, between) ∧ text.Outgrows room

/-- Two ways to evaluate a text, as one form in some room and as all its forms in one unit more, agree
step by step.  States are of any kind that holds a scope. -/
structure Stepwise {σ : Type} (room : Nat) (scope : σ → Scope)
    (one : Text → σ → Except Failure Number × σ)
    (all : Text → σ → Except Failure (List Number) × σ) : Prop where
  /-- A text behind a line end goes on where the text before it has come to. -/
  succeeds : ∀ (first second : Text) (a between after : σ) (results more : List Number),
    all first a = (.ok results, between) → all second between = (.ok more, after) →
      all (first ++ "\n" ++ second) a = (.ok (results ++ more), after)
  fails : ∀ (first second : Text) (a between after : σ) (results : List Number)
    (failure : Failure),
    all first a = (.ok results, between) → all second between = (.error failure, after) →
      ∃ other, failure.Akin other ∧ all (first ++ "\n" ++ second) a = (.error other, after)
  /-- A text leaves the definitions that it has completed and no others. -/
  leaves : ∀ (text : Text) (a : σ),
    scope (all text a).2 = (scope a).defineAll (text.completed (room + 1) (scope a))
  completes : ∀ (first second : Text) (a between : σ) (results : List Number),
    all first a = (.ok results, between) →
      (first ++ "\n" ++ second).completed (room + 1) (scope a) =
        first.completed (room + 1) (scope a) ++ second.completed (room + 1) (scope between)
  /-- A text with one form has the result of that form, unless it outgrows the room. -/
  single : ∀ (text : Text) (a : σ), (∃ d, Datum.read text = .ok d) →
    text.Outgrows room ∨ EndsAlike (thenMap (fun value => [value]) (one text a)) (all text a)
  inTurn : ∀ (texts : List Text) (a : σ), (∀ text ∈ texts, ∃ d, Datum.read text = .ok d) →
    MeetsOutgrown room one texts a ∨
      EndsAlike (evalInTurn one texts a) (all (Text.joined "\n" texts) a)
  /-- By itself a text that outgrows the room is refused, and nothing has happened. -/
  refuses : ∀ (text : Text) (a : σ), text.Outgrows room →
    one text a = (.error (.fault (.malformed (.tooDeep text.excerpt))), a)
  /-- Only a text that is nested deeply outgrows the room. -/
  deep : ∀ (text : Text) (d : Datum), Datum.read text = .ok d → text.Outgrows room →
    room ≤ 3 * d.depth

/-- A form with a value is not too deep, and has that value also among all forms. -/
theorem Stepwise.all_of_one {σ : Type} {room : Nat} {scope : σ → Scope}
    {one : Text → σ → Except Failure Number × σ} {all : Text → σ → Except Failure (List Number) × σ}
    (stepwise : Stepwise room scope one all) (text : Text) (a after : σ) (value : Number)
    (readable : ∃ d, Datum.read text = .ok d) (run : one text a = (.ok value, after)) :
    all text a = (.ok [value], after) := by
  rcases stepwise.single text a readable with outgrown | alike
  · have refused := stepwise.refuses text a outgrown
    rw [run] at refused
    cases refused
  · rw [run] at alike
    exact alike.eq_of_ok [value] after rfl

theorem MeetsOutgrown.later {σ : Type} (room : Nat) (one : Text → σ → Except Failure Number × σ)
    (text : Text) (rest : List Text) (a between : σ) (value : Number)
    (run : one text a = (.ok value, between)) (meets : MeetsOutgrown room one rest between) :
    MeetsOutgrown room one (text :: rest) a := by
  obtain ⟨before, met, after, values, last, split, reached, outgrown⟩ := meets
  refine ⟨text :: before, met, after, value :: values, last, ?_, ?_, outgrown⟩
  · rw [split, List.cons_append]
  · rw [evalInTurn, run]
    dsimp only
    rw [reached]
    rfl

/-- Texts in turn end alike in some room and with one unit more, unless they come to one that outgrows
the room. -/
theorem endsAlike_evalInTurn_succ (room : Nat) (texts : List Text) (s : Scope) :
    MeetsOutgrown room (interpret room) texts s ∨
      EndsAlike (evalInTurn (interpret room) texts s) (evalInTurn (interpret (room + 1)) texts s) := by
  induction texts generalizing s with
  | nil => exact .inr (.value [] s)
  | cons text rest ih =>
      rcases endsAlike_interpret_succ room text s with outgrown | alike
      · exact .inl ⟨[], text, rest, [], s, rfl, rfl, outgrown⟩
      · rcases run : interpret room text s with ⟨result, between⟩
        rcases wideRun : interpret (room + 1) text s with ⟨wideResult, wideBetween⟩
        rw [run, wideRun] at alike
        rw [evalInTurn, evalInTurn, run, wideRun]
        cases alike with
        | failure failure other _ akin => exact .inr (.failure failure other between akin)
        | value value _ =>
            rcases ih between with meets | later
            · exact .inl (meets.later room _ text rest s between value run)
            · exact .inr (endsAlike_thenMap _ _ _ later)

/-- In one and the same room texts in turn end as all forms of the joined text do. -/
theorem endsAlike_evalInTurn (room : Nat) (texts : List Text) (s : Scope)
    (readable : ∀ text ∈ texts, ∃ d, Datum.read text = .ok d) :
    EndsAlike (evalInTurn (interpret room) texts s)
      (interpretAll room (Text.joined "\n" texts) s) := by
  induction texts generalizing s with
  | nil =>
      have empty : interpretAll room (Text.joined "\n" []) s = (.ok [], s) := by
        simp only [Text.joined, List.intersperse_nil, List.flatten_nil, interpretAll,
          Scan.forms_nil, Datum.evalEach]
      rw [empty]
      exact .value [] s
  | cons text rest ih =>
      obtain ⟨d, read⟩ := readable text List.mem_cons_self
      have alone := interpretAll_of_read room text d s read
      have clear := (Scan.forms_of_read text d read).2
      rcases run : interpret room text s with ⟨result, between⟩
      rw [run] at alone
      rw [evalInTurn, run]
      cases rest with
      | nil =>
          rw [Text.joined_singleton, alone]
          cases result with
          | error failure => exact .refl _
          | ok value => exact .refl _
      | cons next others =>
          rw [Text.joined_cons_cons, ← List.append_assoc]
          cases result with
          | error failure =>
              exact interpretAll_append_line_of_error room text _ s between failure clear alone
          | ok value =>
              have later := ih between fun t member => readable t (List.mem_cons_of_mem _ member)
              exact (endsAlike_thenMap _ _ _ later).trans
                (interpretAll_append_line room text _ s between [value] alone)

section Held

variable {σ : Type} (room : Nat) (scope : σ → Scope)
  (one : Text → σ → Except Failure Number × σ)
  (all : Text → σ → Except Failure (List Number) × σ)

theorem evalInTurn_held (ones : ∀ text a, interpret room text (scope a) = (one text a).map id scope)
    (texts : List Text) (a : σ) :
    evalInTurn (interpret room) texts (scope a) = (evalInTurn one texts a).map id scope := by
  induction texts generalizing a with
  | nil => rfl
  | cons text rest ih =>
      have first := ones text a
      rcases run : one text a with ⟨result, between⟩
      rw [run] at first
      cases result with
      | error failure => simp [evalInTurn, run, first]
      | ok value =>
          simp only [evalInTurn, run, first, Prod.map_apply, id]
          rw [ih between]
          rfl

theorem meetsOutgrown_held
    (ones : ∀ text a, interpret room text (scope a) = (one text a).map id scope)
    (texts : List Text) (a : σ) (meets : MeetsOutgrown room (interpret room) texts (scope a)) :
    MeetsOutgrown room one texts a := by
  obtain ⟨before, text, after, values, between, split, reached, outgrown⟩ := meets
  rw [evalInTurn_held room scope one ones] at reached
  rcases run : evalInTurn one before a with ⟨result, last⟩
  rw [run, Prod.map_apply, Prod.mk.injEq] at reached
  obtain ⟨rfl, -⟩ := reached
  exact ⟨before, text, after, values, last, split, run, outgrown⟩

theorem append_line_held (injective : Function.Injective scope)
    (alls : ∀ text a, interpretAll room text (scope a) = (all text a).map id scope)
    (first second : Text) (a between : σ) (results : List Number)
    (run : all first a = (.ok results, between)) :
    EndsAlike (thenMap (results ++ ·) (all second between)) (all (first ++ "\n" ++ second) a) := by
  have held : interpretAll room first (scope a) = (.ok results, scope between) := by
    rw [alls, run]
    rfl
  have alike := interpretAll_append_line room first second (scope a) (scope between) results held
  rw [alls, alls] at alike
  exact EndsAlike.of_map scope injective _ _ alike

/-- States that hold a scope in whatever way evaluate texts step by step as scopes do. -/
theorem stepwise_held (injective : Function.Injective scope)
    (ones : ∀ text a, interpret room text (scope a) = (one text a).map id scope)
    (alls : ∀ text a, interpretAll (room + 1) text (scope a) = (all text a).map id scope) :
    Stepwise room scope one all where
  succeeds first second a between after results more firstRun secondRun := by
    have alike := append_line_held (room + 1) scope all injective alls first second a between
      results firstRun
    rw [secondRun] at alike
    exact alike.eq_of_ok _ after rfl
  fails first second a between after results failure firstRun secondRun := by
    have alike := append_line_held (room + 1) scope all injective alls first second a between
      results firstRun
    rw [secondRun] at alike
    exact alike.exists_of_error failure after rfl
  leaves text a := by
    rw [← scope_interpretAll, alls]
    rfl
  completes first second a between results run := by
    have held : interpretAll (room + 1) first (scope a) = (.ok results, scope between) := by
      rw [alls, run]
      rfl
    exact completed_append_line (room + 1) first second (scope a) (scope between) results held
  single text a readable := by
    obtain ⟨d, read⟩ := readable
    rcases endsAlike_interpret_succ room text (scope a) with outgrown | alike
    · exact .inl outgrown
    · have alone := endsAlike_thenMap (fun value => [value]) _ _ alike
      rw [← interpretAll_of_read (room + 1) text d (scope a) read, alls, ones] at alone
      exact .inr (EndsAlike.of_map scope injective _ _ alone)
  inTurn texts a readable := by
    rcases endsAlike_evalInTurn_succ room texts (scope a) with meets | alike
    · exact .inl (meetsOutgrown_held room scope one ones texts a meets)
    · have whole := alike.trans (endsAlike_evalInTurn (room + 1) texts (scope a) readable)
      rw [evalInTurn_held room scope one ones, alls] at whole
      exact .inr (EndsAlike.of_map scope injective _ _ whole)
  refuses text a outgrown := by
    have alone := interpret_of_outgrows room text (scope a) outgrown
    rw [ones] at alone
    exact Function.Injective.prodMap Function.injective_id injective alone
  deep text d read outgrown := depth_of_outgrows room text d read outgrown

end Held

/-! ## Interpreters -/

namespace Interpreter

/-- The scope that the texts of an interpreter are evaluated in. -/
def scope (i : Interpreter) : Scope := .root i.frame

theorem scope_injective : Function.Injective scope := by
  intro i j same
  exact congrArg (fun s : Scope => Interpreter.mk s.frame) same

theorem interpretAll_scope (text : Text) (i : Interpreter) :
    interpretAll batchRoom text i.scope = (i.evalAll text).map id scope := by
  have unnested : (interpretAll batchRoom text i.scope).2.outer = [] := by
    rw [scope_interpretAll]
    rfl
  exact Prod.ext rfl (Scope.root_of_outer _ unnested)

theorem interpret_scope (text : Text) (i : Interpreter) :
    interpret formRoom text i.scope = (i.eval text).map id scope := by
  have unnested : (interpret formRoom text i.scope).2.outer = [] := by
    unfold interpret Datum.eval
    split
    · rfl
    · split
      · rfl
      · exact Expr.outer_eval _ i.scope
  exact Prod.ext rfl (Scope.root_of_outer _ unnested)

theorem stepwise : Stepwise formRoom scope eval evalAll :=
  stepwise_held formRoom scope eval evalAll scope_injective interpret_scope interpretAll_scope

end Interpreter

/-- Evaluating all forms of a text is evaluating them step by step, in any scope and in any state of
an interpreter, but for the texts that outgrow the room of a single form. -/
theorem batches_are_stepwise :
    (∀ room : Nat, Stepwise room id (interpret room) (interpretAll (room + 1))) ∧
      Stepwise Interpreter.formRoom Interpreter.scope Interpreter.eval Interpreter.evalAll := by
  refine ⟨?_, Interpreter.stepwise⟩
  intro room
  exact stepwise_held room id (interpret room) (interpretAll (room + 1)) Function.injective_id
    (fun _ _ => rfl) (fun _ _ => rfl)

/-- A comment runs to the seam, and the second text defines one name more before it fails. -/
theorem batch_failing_behind_a_comment_is_stepwise :
    let i : Interpreter := ⟨.ofList [(⟨"y", by decide⟩, .int 2)]⟩
    let first : Text := "(define x (* y 3)) ; the rest is not read"
    let second : Text := "(define z x) (define y w) 7"
    ∃ (between after : Interpreter) (failure other : Failure),
      i.evalAll first = (.ok [.int 6], between) ∧
      between.evalAll second = (.error failure, after) ∧ failure.Akin other ∧
      i.evalAll (first ++ "\n" ++ second) = (.error other, after) ∧
      after.frame.keys.map Symbol.name = ["y", "x", "z"] := by
  intro i first second
  have firstValue : (i.evalAll first).1.toOption = some [.int 6] := by decide +kernel
  have secondFails : ((i.evalAll first).2.evalAll second).1.toOption = none := by decide +kernel
  have defined : ((i.evalAll first).2.evalAll second).2.frame.keys.map Symbol.name =
      ["y", "x", "z"] := by decide +kernel
  rcases firstRun : i.evalAll first with ⟨firstResult, between⟩
  rw [firstRun] at firstValue secondFails defined
  rcases secondRun : between.evalAll second with ⟨secondResult, after⟩
  rw [secondRun] at secondFails defined
  cases firstResult with
  | error failure => simp [Except.toOption] at firstValue
  | ok results =>
      obtain rfl : results = [.int 6] := Option.some.inj firstValue
      cases secondResult with
      | ok more => simp [Except.toOption] at secondFails
      | error failure =>
          obtain ⟨other, akin, run⟩ := batches_are_stepwise.2.fails first second i between after
            [.int 6] failure firstRun secondRun
          exact ⟨between, after, failure, other, rfl, secondRun, akin, run, defined⟩

/-! ## A text at the edge -/

theorem read_deepDefinition (count : Nat) :
    Datum.read (Expr.deepDefinition count).source = .ok (Expr.deepDefinition count).toDatum :=
  read_of_writes _ _ (Expr.writes_source _ (Expr.wellFormed_deepDefinition count))

/-- Sums in sums outgrow the room that is one unit too narrow for them, so there is such a text at rooms
of any width. -/
theorem outgrows_deepDefinition (count : Nat) :
    (Expr.deepDefinition count).source.Outgrows (3 * count + 2) := by
  have lack := Expr.build_deepDefinition (3 * count + 2) count (by omega)
  have enough := Expr.build_deepDefinition (3 * count + 2 + 1) count (by omega)
  rw [if_neg (by omega)] at lack
  rw [if_pos (by omega)] at enough
  exact ⟨_, _, read_deepDefinition count, lack, enough⟩

/-- A definition of `x` by sums in sums that is refused by itself, and nothing is bound.  Evaluated as
all the forms of its text it has a value, and binds `x` to it. -/
theorem deep_definition_is_refused_alone :
    let x : Symbol := ⟨"x", by decide⟩
    let text := (Expr.deepDefinition 329).source
    let alone := Interpreter.fresh.eval text
    let amongAll := Interpreter.fresh.evalAll text
    (∃ d, Datum.read text = .ok d) ∧
      alone = (.error (.fault (.malformed (.tooDeep text.excerpt))), .fresh) ∧
      amongAll = (.ok [.int 330], ⟨.ofList [(x, .int 330)]⟩) ∧
      ¬ EndsAlike (thenMap (fun value => [value]) alone) amongAll := by
  intro x text alone amongAll
  have read : Datum.read text = .ok (Expr.deepDefinition 329).toDatum := read_deepDefinition 329
  have outgrown : text.Outgrows Interpreter.formRoom := outgrows_deepDefinition 329
  have refused : alone = (.error (.fault (.malformed (.tooDeep text.excerpt))), .fresh) :=
    Interpreter.stepwise.refuses text .fresh outgrown
  have built := Expr.build_deepDefinition Interpreter.batchRoom 329 (by decide)
  rw [if_pos (by decide)] at built
  have evaluated : interpretAll Interpreter.batchRoom text Interpreter.fresh.scope =
      (.ok [.int 330], Interpreter.fresh.scope.define x (.int 330)) := by
    rw [interpretAll_of_read _ text _ _ read, interpret_of_read _ text _ _ read,
      Datum.eval_of_built _ text _ _ _ built, Expr.deepDefinition, Expr.eval,
      Expr.eval_nestedSum 329 (by decide)]
    rfl
  have whole : amongAll = (.ok [.int 330], ⟨.ofList [(x, .int 330)]⟩) := by
    rw [Interpreter.interpretAll_scope] at evaluated
    exact Function.Injective.prodMap Function.injective_id Interpreter.scope_injective evaluated
  refine ⟨⟨_, read⟩, refused, whole, ?_⟩
  rw [refused, whole]
  rintro ⟨⟩

end ParenCalc
