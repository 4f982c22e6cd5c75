import ParenCalc.Proofs.Expr.Grammar
import ParenCalc.Proofs.Expr.WellFormed
/-!
# Building follows the grammar

Building accepts the data that are expressions and no others, and of a datum that is none it reports
the fault of its first node that has one, from the root and from the left.  Nothing of the datum is
lost: the expression is written as the datum that it was built from.
-/
set_option autoImplicit false

namespace ParenCalc

namespace Expr

/-- What building comes to where `first` is the first fault: a value if there is none, and otherwise
this fault.  It may also come to a lack of room, and then the data are deep. -/
inductive Reports {α : Type} (first : Option Malformed) (room depth : Nat) : Except Failure α → Prop
  | accepted (a : α) (clear : first = none) : Reports first room depth (.ok a)
  | refused (cause : Malformed) (faulty : first = some cause) :
      Reports first room depth (Failure.malformed cause)
  | noRoom (deep : room ≤ 3 * depth) : Reports first room depth (.error (.misuse .noRoom))

namespace Reports

variable {α β : Type} {first : Option Malformed} {room depth : Nat}

theorem map (f : α → β) (result : Except Failure α) (reports : Reports first room depth result) :
    Reports first room depth (result.map f) := by
  cases reports with
  | accepted a clear => exact .accepted (f a) clear
  | refused cause faulty => exact .refused cause faulty
  | noRoom deep => exact .noRoom deep

/-- A part lies deeper by one and has been given up to three units of room less. -/
theorem inside (result : Except Failure α) (taken : Nat) (few : taken ≤ 3)
    (reports : Reports first (room - taken) depth result) :
    Reports first room (depth + 1) result := by
  cases reports with
  | accepted a clear => exact .accepted a clear
  | refused cause faulty => exact .refused cause faulty
  | noRoom deep => exact .noRoom (by omega)

theorem within (result : Except Failure α) (outer : Nat) (deeper : depth ≤ outer)
    (reports : Reports first room depth result) : Reports first room outer result := by
  cases reports with
  | accepted a clear => exact .accepted a clear
  | refused cause faulty => exact .refused cause faulty
  | noRoom deep => exact .noRoom (by omega)

/-- One after the other the first report that is no value counts. -/
theorem bind {second : Option Malformed} (result : Except Failure α) (next : α → Except Failure β)
    (reports : Reports first room depth result)
    (later : ∀ a, Reports second room depth (next a)) :
    Reports (first.or second) room depth (result.bind next) := by
  cases reports with
  | accepted a clear =>
      rw [clear, Option.none_or]
      exact later a
  | refused cause faulty => exact .refused cause (by rw [faulty, Option.some_or])
  | noRoom deep => exact .noRoom deep

end Reports

theorem depth_form (head : Symbol) (tail : List Datum) :
    (Datum.list (.symbol head :: tail)).depth = Datum.depthOfItems tail + 1 := by
  rw [Datum.depth, Datum.depthOfItems, Datum.depth, Nat.zero_max]
  simp

theorem buildConditional_eq_bind (room : Nat) (test yes no : Datum) :
    buildConditional room [test, yes, no] =
      (build room test).bind fun testExpr => (build room yes).bind fun yesExpr =>
        (build room no).map (conditional testExpr yesExpr) := by
  rw [buildConditional]
  cases build room test with
  | error failure => rfl
  | ok testExpr => cases build room yes <;> rfl

theorem buildAll_cons (room : Nat) (d : Datum) (rest : List Datum) :
    buildAll room (d :: rest) =
      (build room d).bind fun e => (buildAll room rest).map (e :: ·) := by
  rw [buildAll]
  cases build room d <;> rfl

mutual

theorem reports_build (room : Nat) : ∀ d : Datum, Reports d.firstFault? room d.depth (build room d)
  | .number n => by
      unfold build
      split
      · exact .noRoom (by omega)
      · exact .accepted _ rfl
  | .symbol x => by
      unfold build
      split
      · exact .noRoom (by omega)
      · exact .accepted _ rfl
  | .foreign v => by
      unfold build
      split
      · exact .noRoom (by omega)
      · cases v <;> exact .refused _ rfl
  | .list [] => by
      unfold build
      split
      · exact .noRoom (by omega)
      · exact .refused _ rfl
  | .list (.symbol head :: tail) => by
      have definition := reports_buildDefinition (room - 2) tail
      have conditional := reports_buildConditional (room - 2) tail
      have parts := reports_buildAll (room - 3) tail
      rw [Datum.firstFault?_form, Datum.formFault?, depth_form, build]
      by_cases empty : room = 0
      · rw [if_pos empty]
        exact .noRoom (by omega)
      · rw [if_neg empty]
        by_cases isDefine : head = Symbol.define
        · rw [if_pos isDefine, if_pos isDefine]
          exact definition.inside _ 2 (by decide)
        · rw [if_neg isDefine, if_neg isDefine]
          by_cases isCond : head = Symbol.cond
          · rw [if_pos isCond, if_pos isCond]
            exact conditional.inside _ 2 (by decide)
          · rw [if_neg isCond, if_neg isCond]
            cases Operator.ofSymbol? head with
            | none => exact .refused _ rfl
            | some op =>
                dsimp only
                by_cases accepted : op.accepts tail.length = true
                · rw [if_pos accepted, if_pos accepted, Option.none_or]
                  exact (parts.map _ _).inside _ 3 (by decide)
                · rw [if_neg accepted, if_neg accepted]
                  exact .refused _ rfl
  | .list (.number _ :: _) | .list (.list _ :: _) | .list (.foreign _ :: _) => by
      unfold build
      split
      · exact .noRoom (by omega)
      · dsimp only
        split
        · exact .refused _ rfl
        · refine .noRoom ?_
          rw [Datum.depth, Datum.depthOfItems]
          omega

theorem reports_buildDefinition (room : Nat) : ∀ tail : List Datum,
    Reports ((Datum.definitionFault? tail).or (Datum.firstFaultOfItems? tail)) room
      (Datum.depthOfItems tail) (buildDefinition room tail)
  | [.symbol name, value] => by
      have part := reports_build room value
      have deep := Datum.depth_le_of_mem value [.symbol name, value] (by simp)
      rw [buildDefinition, Datum.definitionFault?]
      by_cases reserved : name.isReserved = true
      · rw [if_pos reserved, if_pos reserved]
        exact .refused _ rfl
      · rw [if_neg reserved, if_neg reserved, Option.none_or, Datum.firstFaultOfItems?_cons,
          Datum.firstFaultOfItems?_cons, Datum.firstFault?_symbol, Option.none_or,
          Datum.firstFaultOfItems?_nil, Option.or_none]
        exact (part.map _ _).within _ _ deep
  | [.number _, _] | [.list _, _] | [.foreign _, _] => by
      unfold buildDefinition
      split
      · exact .refused _ rfl
      · refine .noRoom ?_
        simp only [Datum.depthOfItems]
        omega
  | [] | [_] | _ :: _ :: _ :: _ => by
      rw [buildDefinition_of_length room _ (by simp), Datum.definitionFault?_of_length _ (by simp)]
      exact .refused _ rfl

theorem reports_buildConditional (room : Nat) : ∀ tail : List Datum,
    Reports ((if tail.length = 3 then none else some .condShape).or
      (Datum.firstFaultOfItems? tail)) room (Datum.depthOfItems tail) (buildConditional room tail)
  | [test, yes, no] => by
      have three : [test, yes, no].length = 3 := rfl
      have deep (d : Datum) (member : d ∈ [test, yes, no]) := Datum.depth_le_of_mem d _ member
      have testPart := (reports_build room test).within _ _ (deep test (by simp))
      have yesPart := (reports_build room yes).within _ _ (deep yes (by simp))
      have noPart := (reports_build room no).within _ _ (deep no (by simp))
      rw [if_pos three, Option.none_or, Datum.firstFaultOfItems?_cons,
        Datum.firstFaultOfItems?_cons, Datum.firstFaultOfItems?_cons, Datum.firstFaultOfItems?_nil,
        Option.or_none]
      rw [buildConditional_eq_bind]
      refine testPart.bind _ _ fun testExpr => ?_
      refine yesPart.bind _ _ fun yesExpr => ?_
      exact noPart.map _ _
  | [] | [_] | [_, _] | _ :: _ :: _ :: _ :: _ => by
      rw [buildConditional_of_length room _ (by simp), if_neg (by simp)]
      exact .refused _ rfl

theorem reports_buildAll (room : Nat) : ∀ data : List Datum,
    Reports (Datum.firstFaultOfItems? data) room (Datum.depthOfItems data) (buildAll room data)
  | [] => .accepted _ rfl
  | d :: rest => by
      have part := (reports_build room d).within _ _ (Nat.le_max_left _ (Datum.depthOfItems rest))
      have others := (reports_buildAll room rest).within _ _ (Nat.le_max_right d.depth _)
      rw [Datum.firstFaultOfItems?_cons, Datum.depthOfItems, buildAll_cons]
      refine part.bind _ _ fun e => ?_
      exact others.map _ _

end

theorem noFault_of_build (room : Nat) (d : Datum) (e : Expr) (run : build room d = .ok e) :
    d.firstFault? = none := by
  have reports := reports_build room d
  rw [run] at reports
  cases reports with
  | accepted _ clear => exact clear

theorem depth_of_noRoom (room : Nat) (d : Datum) (run : build room d = .error (.misuse .noRoom)) :
    room ≤ 3 * d.depth := by
  have reports := reports_build room d
  rw [run] at reports
  cases reports with
  | noRoom deep => exact deep

theorem fault_of_build (room : Nat) (d : Datum) (failure : Failure)
    (run : build room d = .error failure) :
    failure = .misuse .noRoom ∨
      ∃ cause, d.firstFault? = some cause ∧ failure = .fault (.malformed cause) := by
  have reports := reports_build room d
  rw [run] at reports
  cases reports with
  | refused cause faulty => exact .inr ⟨cause, faulty, rfl⟩
  | noRoom deep => exact .inl rfl

end Expr

/-- Where there is room for its nesting, a datum builds if and only if it is an expression by the
grammar, and the fault of one that does not build is that of its first node that has one, from the
root and from the left.  What is built is written as the datum, so that no other datum builds it. -/
theorem building_follows_grammar (room : Nat) (d : Datum) :
    (3 * d.depth < room → Expr.build room d ≠ .error (.misuse .noRoom)) ∧
    (Expr.build room d ≠ .error (.misuse .noRoom) →
      ((∃ e, Expr.build room d = .ok e) ↔ d.Expressible)) ∧
    (∀ e, Expr.build room d = .ok e → e.toDatum = d ∧
      ∀ otherRoom other, Expr.build otherRoom other = .ok e → other = d) ∧
    ∀ failure, Expr.build room d = .error failure → failure = .misuse .noRoom ∨
      ∃ before node after cause, d.nodes = before ++ node :: after ∧
        (∀ early ∈ before, early.ownFault? = none) ∧ node.ownFault? = some cause ∧
        failure = .fault (.malformed cause) := by
  refine ⟨?_, ?_, ?_, ?_⟩
  · intro shallow run
    have deep := Expr.depth_of_noRoom room d run
    omega
  · intro enough
    rw [d.expressible_iff_noFault]
    constructor
    · rintro ⟨e, run⟩
      exact Expr.noFault_of_build room d e run
    · intro clear
      cases run : Expr.build room d with
      | ok e => exact ⟨e, rfl⟩
      | error failure =>
          obtain rfl | ⟨cause, faulty, -⟩ := Expr.fault_of_build room d failure run
          · exact absurd run enough
          · rw [clear] at faulty
            simp at faulty
  · intro e run
    have written := Expr.toDatum_of_build room d e run
    refine ⟨written, ?_⟩
    intro otherRoom other otherRun
    rw [← written, Expr.toDatum_of_build otherRoom other e otherRun]
  · intro failure run
    obtain noRoom | ⟨cause, faulty, rfl⟩ := Expr.fault_of_build room d failure run
    · exact .inl noRoom
    · obtain ⟨before, node, after, split, own, clear⟩ := List.findSome?_eq_some_iff.mp faulty
      exact .inr ⟨before, node, after, cause, split, clear, own, rfl⟩

/-- An unknown head hides the fault among its own parts and the one to its right. -/
theorem first_of_three_faults_is_reported :
    let foo : Symbol := ⟨"foo", by decide⟩
    let inner : Datum := .list [.symbol foo, .list [.number (.int 1)]]
    let d : Datum := .list [.symbol Arithmetic.add.symbol, .number (.int 1), inner, .list []]
    let failure : Failure := .fault (.malformed (.unknownHead foo))
    3 * d.depth < Expr.fullRoom ∧ Expr.build Expr.fullRoom d ≠ .error (.misuse .noRoom) ∧
      ¬ d.Expressible ∧ Expr.build Expr.fullRoom d = .error failure ∧
      ∃ before node after cause, d.nodes = before ++ node :: after ∧
        (∀ early ∈ before, early.ownFault? = none) ∧ node.ownFault? = some cause ∧
        failure = .fault (.malformed cause) := by
  intro foo inner d failure
  have run : Expr.build Expr.fullRoom d = .error failure := rfl
  have shallow : 3 * d.depth < Expr.fullRoom := by decide
  obtain ⟨room, grammar, -, report⟩ := building_follows_grammar Expr.fullRoom d
  have enough := room shallow
  refine ⟨shallow, enough, ?_, run, ?_⟩
  · intro expressible
    obtain ⟨e, built⟩ := (grammar enough).mpr expressible
    simp [run] at built
  · obtain noRoom | first := report failure run
    · simp [failure] at noRoom
    · exact first

end ParenCalc
