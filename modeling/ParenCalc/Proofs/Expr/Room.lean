import ParenCalc.Eval
import ParenCalc.Proofs.Expr.Building
/-!
# More room

More room makes no difference where there is enough: what is built or refused in some room is built
or refused in the same way in any wider one.  So two callers with different room disagree about a
datum only if it is too deep for one of them.  That can happen, however wide the room is: sums that
stand in each other take three units for each.
-/
set_option autoImplicit false

namespace ParenCalc

namespace Expr

/-- A wider room comes to the same as a narrower one, unless that one was too narrow. -/
def Widens {α : Type} (narrow wide : Except Failure α) : Prop :=
  narrow = .error (.misuse .noRoom) ∨ wide = narrow

namespace Widens

variable {α β : Type} {narrow wide : Except Failure α}

theorem refl (result : Except Failure α) : Widens result result := .inr rfl

theorem map (f : α → β) (widens : Widens narrow wide) : Widens (narrow.map f) (wide.map f) := by
  rcases widens with lack | same
  · rw [lack]
    exact .inl rfl
  · rw [same]
    exact refl _

theorem bind (f g : α → Except Failure β) (widens : Widens narrow wide)
    (later : ∀ a, Widens (f a) (g a)) : Widens (narrow.bind f) (wide.bind g) := by
  rcases widens with lack | same
  · rw [lack]
    exact .inl rfl
  · rw [same]
    cases narrow with
    | error failure => exact refl _
    | ok a => exact later a

/-- Every step of building begins with a look at the room. -/
theorem checked (room more : Nat) (wider : room ≤ more) (widens : Widens narrow wide) :
    Widens (if room = 0 then .error (.misuse .noRoom) else narrow)
      (if more = 0 then .error (.misuse .noRoom) else wide) := by
  by_cases empty : room = 0
  · rw [if_pos empty]
    exact .inl rfl
  · rw [if_neg empty, if_neg (by omega)]
    exact widens

/-- So does the showing of a datum in a message. -/
theorem shown (d : Datum) (room more : Nat) (wider : room ≤ more) (result : Except Failure α) :
    Widens (if d.depth < room then result else .error (.misuse .noRoom))
      (if d.depth < more then result else .error (.misuse .noRoom)) := by
  by_cases shallow : d.depth < room
  · rw [if_pos shallow, if_pos (by omega)]
    exact refl _
  · rw [if_neg shallow]
    exact .inl rfl

end Widens

mutual

theorem widens_build (room more : Nat) (wider : room ≤ more) :
    ∀ d : Datum, Widens (build room d) (build more d)
  | .number n => by
      unfold build
      exact (Widens.refl _).checked room more wider
  | .symbol x => by
      unfold build
      exact (Widens.refl _).checked room more wider
  | .foreign v => by
      unfold build
      cases v <;> exact (Widens.refl _).checked room more wider
  | .list [] => by
      unfold build
      exact (Widens.refl _).checked room more wider
  | .list (.symbol head :: tail) => by
      have definition := widens_buildDefinition (room - 2) (more - 2) (by omega) tail
      have conditional := widens_buildConditional (room - 2) (more - 2) (by omega) tail
      have parts := widens_buildAll (room - 3) (more - 3) (by omega) tail
      unfold build
      refine Widens.checked room more wider ?_
      dsimp only
      by_cases isDefine : head = Symbol.define
      · rw [if_pos isDefine, if_pos isDefine]
        exact definition
      · rw [if_neg isDefine, if_neg isDefine]
        by_cases isCond : head = Symbol.cond
        · rw [if_pos isCond, if_pos isCond]
          exact conditional
        · rw [if_neg isCond, if_neg isCond]
          cases Operator.ofSymbol? head with
          | none => exact .refl _
          | some op =>
              dsimp only
              by_cases accepted : op.accepts tail.length = true
              · rw [if_pos accepted, if_pos accepted]
                exact parts.map _
              · rw [if_neg accepted, if_neg accepted]
                exact .refl _
  | .list (.number _ :: _) | .list (.list _ :: _) | .list (.foreign _ :: _) => by
      unfold build
      exact (Widens.shown _ room more wider _).checked room more wider

theorem widens_buildDefinition (room more : Nat) (wider : room ≤ more) :
    ∀ tail : List Datum, Widens (buildDefinition room tail) (buildDefinition more tail)
  | [.symbol name, value] => by
      have part := widens_build room more wider value
      rw [buildDefinition, buildDefinition]
      by_cases reserved : name.isReserved = true
      · rw [if_pos reserved, if_pos reserved]
        exact .refl _
      · rw [if_neg reserved, if_neg reserved]
        exact part.map _
  | [.number _, _] | [.list _, _] | [.foreign _, _] => by
      unfold buildDefinition
      exact Widens.shown _ room more wider _
  | [] | [_] | _ :: _ :: _ :: _ => by
      rw [buildDefinition_of_length room _ (by simp), buildDefinition_of_length more _ (by simp)]
      exact .refl _

theorem widens_buildConditional (room more : Nat) (wider : room ≤ more) :
    ∀ tail : List Datum, Widens (buildConditional room tail) (buildConditional more tail)
  | [test, yes, no] => by
      have testPart := widens_build room more wider test
      have yesPart := widens_build room more wider yes
      have noPart := widens_build room more wider no
      rw [buildConditional_eq_bind, buildConditional_eq_bind]
      refine testPart.bind _ _ fun testExpr => ?_
      refine yesPart.bind _ _ fun yesExpr => ?_
      exact noPart.map _
  | [] | [_] | [_, _] | _ :: _ :: _ :: _ :: _ => by
      rw [buildConditional_of_length room _ (by simp), buildConditional_of_length more _ (by simp)]
      exact .refl _

theorem widens_buildAll (room more : Nat) (wider : room ≤ more) :
    ∀ data : List Datum, Widens (buildAll room data) (buildAll more data)
  | [] => .refl _
  | d :: rest => by
      have part := widens_build room more wider d
      have others := widens_buildAll room more wider rest
      rw [buildAll_cons, buildAll_cons]
      refine part.bind _ _ fun e => ?_
      exact others.map _

end

/-! ## Sums in sums -/

/-- One, and so many sums around it that add one to it: `(+ 1 (+ 1 1))` for two. -/
def nestedSum : Nat → Expr
  | 0 => .literal (.int 1)
  | count + 1 => .application Arithmetic.add.symbol [.literal (.int 1), nestedSum count]

/-- The definition of a name as sums in sums. -/
def deepDefinition (count : Nat) : Expr := .definition ⟨"x", by decide⟩ (nestedSum count)

theorem ofSymbol?_add : Operator.ofSymbol? Arithmetic.add.symbol = some (.arithmetic .add) :=
  Operator.ofSymbol?_symbol (.arithmetic .add)

theorem wellFormed_deepDefinition (count : Nat) : (deepDefinition count).WellFormed := by
  have one : (Expr.literal (.int 1)).WellFormed := by
    unfold WellFormed
    decide +kernel
  have sums : (nestedSum count).WellFormed := by
    induction count with
    | zero => exact one
    | succ count ih => exact ⟨⟨.arithmetic .add, ofSymbol?_add, rfl⟩, one, ih, trivial⟩
  exact ⟨⟨by decide, by decide⟩, sums⟩

/-- Sums in sums take three units of room for each of them. -/
theorem build_nestedSum (room count : Nat) :
    build room (nestedSum count).toDatum =
      if 3 * count < room then .ok (nestedSum count) else .error (.misuse .noRoom) := by
  induction count generalizing room with
  | zero =>
      rw [nestedSum, toDatum, build]
      by_cases empty : room = 0
      · rw [if_pos empty, if_neg (by omega)]
      · rw [if_neg empty, if_pos (by omega)]
  | succ count ih =>
      have notDefine : Arithmetic.add.symbol ≠ Symbol.define := by decide
      have notCond : Arithmetic.add.symbol ≠ Symbol.cond := by decide
      have accepted : (Operator.arithmetic .add).accepts
          [Datum.number (.int 1), (nestedSum count).toDatum].length = true := rfl
      rw [nestedSum, toDatum, toData, toData, toData, toDatum, build, if_neg notDefine,
        if_neg notCond, ofSymbol?_add]
      dsimp only
      rw [if_pos accepted, buildAll_cons, buildAll_cons, ih (room - 3), buildAll, build]
      by_cases enough : 3 * (count + 1) < room
      · have nonempty : room ≠ 0 := by omega
        have inside : room - 3 ≠ 0 := by omega
        have deeper : 3 * count < room - 3 := by omega
        rw [if_pos enough, if_neg nonempty, if_neg inside, if_pos deeper]
        rfl
      · have tooDeep : ¬ 3 * count < room - 3 := by omega
        rw [if_neg enough, if_neg tooDeep]
        by_cases empty : room = 0
        · rw [if_pos empty]
        · rw [if_neg empty]
          by_cases tight : room - 3 = 0
          · rw [if_pos tight]
            rfl
          · rw [if_neg tight]
            rfl

theorem build_deepDefinition (room count : Nat) (nonempty : room ≠ 0) :
    build room (deepDefinition count).toDatum =
      if 3 * count + 2 < room then .ok (deepDefinition count) else .error (.misuse .noRoom) := by
  have sums := build_nestedSum (room - 2) count
  rw [deepDefinition, toDatum, build, if_neg nonempty, if_pos rfl, buildDefinition,
    if_neg (by decide), sums]
  by_cases enough : 3 * count + 2 < room
  · have deeper : 3 * count < room - 2 := by omega
    rw [if_pos enough, if_pos deeper]
    rfl
  · have tooDeep : ¬ 3 * count < room - 2 := by omega
    rw [if_neg enough, if_neg tooDeep]
    rfl

theorem isAdmissible_natCast (count : Nat) (few : count ≤ Number.maxBits) :
    (Number.int count).isAdmissible = true := by
  unfold Number.isAdmissible Number.bitLength
  dsimp only
  by_cases zero : (count : Int) = 0
  · rw [if_pos zero]
    rfl
  · have bits : count.log2 < count := (Nat.log2_lt (by omega)).mpr Nat.lt_two_pow_self
    rw [if_neg zero, Int.natAbs_natCast, decide_eq_true_eq]
    omega

theorem apply_add_one (count : Nat) (few : count < Number.maxBits) :
    Operator.apply (.arithmetic .add) [.int 1, .int count] = .ok (.int (count + 1 : Nat)) := by
  have admissible := isAdmissible_natCast (count + 1) few
  have total : (1 : Int) + count = (count + 1 : Nat) := by omega
  simp only [Operator.apply, Arithmetic.apply, Arithmetic.fold, Arithmetic.combine?, Number.add?,
    Number.combine?, Arithmetic.settle, total, admissible]
  rfl

theorem eval_nestedSum (count : Nat) (few : count < Number.maxBits) (s : Scope) :
    (nestedSum count).eval s = (.ok (.int (count + 1 : Nat)), s) := by
  induction count with
  | zero => rfl
  | succ count ih =>
      have inner := ih (by omega)
      have total := apply_add_one (count + 1) few
      simp only [nestedSum, eval, evalAll, ofSymbol?_add, inner, total]

end Expr

end ParenCalc
