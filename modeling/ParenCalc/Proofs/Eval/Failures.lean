import ParenCalc.Proofs.Eval.Safety
/-!
# What evaluation fails with

A well-formed expression that fails in a scope of admissible values has met a name that is not bound
or a fault of arithmetic.  Such a fault reports operands that are admissible, all but one: a division
by zero reports the value that the fold has come to, and on its way a fold of divisions may go past
the greatest double.  It never comes to no number at all.
-/
set_option autoImplicit false

namespace ParenCalc

/-! ## Values on the way -/

/-- A value that a fold of divisions may come to on its way. -/
def Number.IsRunning : Number → Prop
  | .int i => (Number.int i).isAdmissible = true
  | .float x => x.isNaN = false

namespace Binary64

theorem isNaN_div (x y : Binary64) (number : x.isNaN = false) (finite : y.isFinite = true)
    (notZero : y.magnitude ≠ 0) : (x.div y).isNaN = false := by
  cases y with
  | nan => simp [isFinite] at finite
  | infinite negative => simp [isFinite] at finite
  | finite negative significand power canonical =>
      cases x with
      | nan => simp [isNaN] at number
      | infinite other => rfl
      | finite other otherSignificand otherPower otherCanonical =>
          simp only [div, if_neg notZero]
          exact isNaN_roundUnits _ _ _

end Binary64

namespace Number

theorem bitLength_div_le (a b : Int) : bitLength (a / b) ≤ bitLength a := by
  have smaller : (a / b).natAbs ≤ a.natAbs := Int.natAbs_ediv_le_natAbs a b
  unfold bitLength
  split
  · exact Nat.zero_le _
  · rename_i notZero
    have positive : (a / b).natAbs ≠ 0 := Int.natAbs_ne_zero.mpr notZero
    have dividend : a.natAbs ≠ 0 := by omega
    have narrower : (a / b).natAbs.log2 ≤ a.natAbs.log2 :=
      (Nat.le_log2 dividend).mpr (Nat.le_trans (Nat.log2_self_le positive) smaller)
    rw [if_neg (Int.natAbs_ne_zero.mp dividend)]
    exact Nat.succ_le_succ narrower

theorem isRunning_of_isAdmissible (n : Number) (admissible : n.isAdmissible = true) :
    n.IsRunning := by
  cases n with
  | int i => exact admissible
  | float x => exact x.isNaN_of_isFinite admissible

theorem isNaN_of_toBinary64? (a : Number) (x : Binary64) (running : a.IsRunning)
    (converted : a.toBinary64? = some x) : x.isNaN = false := by
  cases a with
  | float y => rwa [← Option.some.inj converted]
  | int i =>
      simp only [toBinary64?] at converted
      split at converted
      · rename_i finite
        rw [← Option.some.inj converted]
        exact Binary64.isNaN_of_isFinite _ finite
      · simp at converted

theorem isFinite_of_toBinary64? (a : Number) (x : Binary64) (admissible : a.isAdmissible = true)
    (converted : a.toBinary64? = some x) : x.isFinite = true := by
  cases a with
  | float y => rwa [← Option.some.inj converted]
  | int i =>
      simp only [toBinary64?] at converted
      split at converted
      · rename_i finite
        rwa [← Option.some.inj converted]
      · simp at converted

theorem isZero_of_magnitude (x : Binary64) (finite : x.isFinite = true) (nothing : x.magnitude = 0) :
    (Number.float x).isZero = true := by
  cases x with
  | nan => simp [Binary64.isFinite] at finite
  | infinite negative => simp [Binary64.isFinite] at finite
  | finite negative significand power canonical =>
      rw [isZero_iff_units _ rfl rfl]
      show Binary64.units _ = 0
      unfold Binary64.units
      rw [nothing]
      split <;> rfl

/-- Unless both are integers, two numbers are divided as doubles. -/
theorem div?_of_double (a b c : Number) (notZero : b.isZero = false)
    (double : ¬ ∃ i j, a = .int i ∧ b = .int j) (divides : a.div? b notZero = some c) :
    ∃ x y, a.toBinary64? = some x ∧ b.toBinary64? = some y ∧ c = .float (x.div y) := by
  have asDoubles : (do return Number.float (Binary64.div (← a.toBinary64?) (← b.toBinary64?))) =
      some c := by
    cases a with
    | float x => exact divides
    | int i =>
        cases b with
        | float y => exact divides
        | int j => exact absurd ⟨i, j, rfl, rfl⟩ double
  obtain ⟨x, left, rest⟩ := Option.bind_eq_some_iff.mp asDoubles
  obtain ⟨y, right, value⟩ := Option.bind_eq_some_iff.mp rest
  exact ⟨x, y, left, right, (Option.some.inj value).symm⟩

theorem isRunning_div? (a b c : Number) (running : a.IsRunning) (admissible : b.isAdmissible = true)
    (notZero : b.isZero = false) (divides : a.div? b notZero = some c) : c.IsRunning := by
  by_cases integers : ∃ i j, a = .int i ∧ b = .int j
  · obtain ⟨i, j, rfl, rfl⟩ := integers
    simp only [div?] at divides
    split at divides
    · rw [← Option.some.inj divides]
      have narrow : bitLength i ≤ maxBits := of_decide_eq_true running
      exact decide_eq_true (Nat.le_trans (bitLength_div_le i j) narrow)
    · split at divides
      · rename_i finite
        rw [← Option.some.inj divides]
        exact Binary64.isNaN_of_isFinite _ finite
      · simp at divides
  · obtain ⟨x, y, left, right, rfl⟩ := div?_of_double a b c notZero integers divides
    have finite := isFinite_of_toBinary64? b y admissible right
    apply Binary64.isNaN_div x y (isNaN_of_toBinary64? a x running left) finite
    intro nothing
    have zero := isZero_of_toBinary64? b y right (isZero_of_magnitude y finite nothing)
    rw [notZero] at zero
    exact Bool.false_ne_true zero

end Number

/-! ## Faults of arithmetic -/

/-- The operands that a fault reports are admissible, the value that a fold of divisions has come to
apart. -/
def ArithmeticFault.Grounded : ArithmeticFault → Prop
  | .divisionByZero a b => a.IsRunning ∧ b.isAdmissible = true
  | .numericOverflow _ operands => ∀ n ∈ operands, n.isAdmissible = true
  | .integerOverflow _ operands => ∀ n ∈ operands, n.isAdmissible = true

namespace Arithmetic

theorem grounded_settle (op : Arithmetic) (operands : List Number) (result : Number)
    (cause : ArithmeticFault) (admissible : ∀ n ∈ operands, n.isAdmissible = true)
    (run : op.settle operands result = .error cause) : cause.Grounded := by
  unfold settle at run
  split at run
  · simp at run
  · split at run
    · rw [← Except.error.inj run]
      exact admissible
    · rw [← Except.error.inj run]
      exact admissible

theorem grounded_fold (op : Arithmetic) (operands rest : List Number) (acc : Number)
    (cause : ArithmeticFault) (admissible : ∀ n ∈ operands, n.isAdmissible = true)
    (restAdmissible : ∀ n ∈ rest, n.isAdmissible = true) (running : op = .div → acc.IsRunning)
    (run : op.fold operands acc rest = .error cause) : cause.Grounded := by
  -- only divisions report the value they have come to, so only theirs has to be known
  induction rest generalizing acc with
  | nil => exact grounded_settle op operands acc cause admissible run
  | cons b rest ih =>
      have divisor : b.isAdmissible = true := restAdmissible b List.mem_cons_self
      unfold fold at run
      split at run
      · rename_i byZero
        rw [← Except.error.inj run]
        exact ⟨running byZero.1, divisor⟩
      · dsimp only at run
        split at run
        · rename_i next combined
          refine ih next (fun n member => restAdmissible n (List.mem_cons_of_mem b member)) ?_ run
          rintro rfl
          exact Number.isRunning_div? acc b next (running rfl) divisor _ combined
        · rw [← Except.error.inj run]
          exact admissible

end Arithmetic

/-! ## Expressions -/

/-- The ways in which the evaluation of a well-formed expression fails. -/
inductive Failure.IsMishap : Failure → Prop
  | undefined (name : Text) : IsMishap (.fault (.undefined name))
  | arithmetic (cause : ArithmeticFault) (grounded : cause.Grounded) :
      IsMishap (.fault (.arithmetic cause))

theorem Operator.isMishap_of_apply (op : Operator) (operands : List Number) (failure : Failure)
    (enough : op.accepts operands.length = true)
    (admissible : ∀ n ∈ operands, n.isAdmissible = true)
    (failed : op.apply operands = .error failure) : failure.IsMishap := by
  cases op with
  | arithmetic op =>
      match operands, enough with
      | a :: rest, _ =>
          change (op.fold (a :: rest) a rest).mapError _ = _ at failed
          cases run : op.fold (a :: rest) a rest with
          | ok n => simp [run, Except.mapError] at failed
          | error cause =>
              rw [run] at failed
              rw [← Except.error.inj failed]
              exact .arithmetic cause (op.grounded_fold (a :: rest) rest a cause admissible
                (fun n member => admissible n (List.mem_cons_of_mem a member))
                (fun _ => a.isRunning_of_isAdmissible (admissible a List.mem_cons_self)) run)
  | comparison op =>
      match operands, enough with
      | [a, b], _ => simp [apply, Comparison.apply] at failed

namespace Expr

/-- What an expression evaluates to, when it is well formed and the scope admissible, and what it
leaves: the facts about a run that the proof for a larger expression needs. -/
theorem evaluates_of_run (e : Expr) (s after : Scope) (result : Except Failure Number)
    (wellFormed : e.WellFormed) (admissible : s.Admissible) (run : e.eval s = (result, after)) :
    Answers (fun n => n.isAdmissible = true) result ∧ after.Admissible := by
  have evaluated := evaluates_eval e s wellFormed admissible
  rw [run] at evaluated
  exact ⟨evaluated.answers, evaluated.admissible admissible⟩

theorem admissible_of_evalAll (arguments : List Expr) (s : Scope) (operands : List Number)
    (wellFormed : AllWellFormed arguments) (admissible : s.Admissible)
    (run : (evalAll arguments s).1 = .ok operands) : ∀ n ∈ operands, n.isAdmissible = true := by
  induction arguments generalizing s operands with
  | nil =>
      unfold evalAll at run
      rw [← Except.ok.inj run]
      simp
  | cons e rest ih =>
      unfold evalAll at run
      rcases first : e.eval s with ⟨result, between⟩
      obtain ⟨answers, still⟩ := evaluates_of_run e s between result wellFormed.1 admissible first
      rw [first] at run
      cases result with
      | error failure => simp at run
      | ok value =>
          dsimp only at run
          rcases later : evalAll rest between with ⟨restResult, after⟩
          rw [later] at run
          cases restResult with
          | error failure => simp at run
          | ok values =>
              rw [← Except.ok.inj run]
              intro n member
              rcases List.mem_cons.mp member with rfl | among
              · exact answers
              · exact ih between values wellFormed.2 still (by rw [later]) n among

mutual

theorem isMishap_of_eval :
    ∀ (e : Expr) (s : Scope) (failure : Failure), e.WellFormed → s.Admissible →
      (e.eval s).1 = .error failure → failure.IsMishap
  | .literal n, s, failure, _, _, failed => by
      unfold eval at failed
      simp at failed
  | .reference x, s, failure, _, _, failed => by
      unfold eval at failed
      split at failed
      · simp at failed
      · rw [← Except.error.inj failed]
        exact .undefined x.name
  | .definition x e, s, failure, ⟨_, wellFormed⟩, admissible, failed => by
      have inner := isMishap_of_eval e s failure wellFormed admissible
      unfold eval at failed
      rcases run : e.eval s with ⟨result, after⟩
      rw [run] at failed inner
      cases result with
      | ok value => simp at failed
      | error cause => exact inner failed
  | .conditional test yes no, s, failure, ⟨testFormed, yesFormed, noFormed⟩, admissible, failed => by
      have tested := isMishap_of_eval test s failure testFormed admissible
      unfold eval at failed
      rcases run : test.eval s with ⟨result, after⟩
      obtain ⟨-, still⟩ := evaluates_of_run test s after result testFormed admissible run
      rw [run] at failed tested
      cases result with
      | error cause => exact tested failed
      | ok value =>
          dsimp only at failed
          split at failed
          · exact isMishap_of_eval yes after failure yesFormed still failed
          · exact isMishap_of_eval no after failure noFormed still failed
  | .application x arguments, s, failure, ⟨⟨op, found, enough⟩, wellFormed⟩, admissible, failed => by
      have inner := isMishap_of_evalAll arguments s failure wellFormed admissible
      have count := (evaluates_evalAll arguments s wellFormed admissible).answers
      have operandsAdmissible := admissible_of_evalAll arguments s
      unfold eval at failed
      rw [found] at failed
      rcases run : evalAll arguments s with ⟨result, after⟩
      rw [run] at failed inner count operandsAdmissible
      cases result with
      | error cause => exact inner (congrArg Except.error (Except.error.inj failed))
      | ok operands =>
          have same : operands.length = arguments.length := count
          exact op.isMishap_of_apply operands failure (same ▸ enough)
            (operandsAdmissible operands wellFormed admissible rfl) failed

theorem isMishap_of_evalAll :
    ∀ (arguments : List Expr) (s : Scope) (failure : Failure), AllWellFormed arguments →
      s.Admissible → (evalAll arguments s).1 = .error failure → failure.IsMishap
  | [], s, failure, _, _, failed => by
      unfold evalAll at failed
      simp at failed
  | e :: rest, s, failure, ⟨wellFormed, restFormed⟩, admissible, failed => by
      have first := isMishap_of_eval e s failure wellFormed admissible
      unfold evalAll at failed
      rcases run : e.eval s with ⟨result, between⟩
      obtain ⟨-, still⟩ := evaluates_of_run e s between result wellFormed admissible run
      rw [run] at failed first
      cases result with
      | error cause => exact first (congrArg Except.error (Except.error.inj failed))
      | ok value =>
          have later := isMishap_of_evalAll rest between failure restFormed still
          dsimp only at failed
          rcases restRun : evalAll rest between with ⟨restResult, after⟩
          rw [restRun] at failed later
          cases restResult with
          | error cause => exact later failed
          | ok values => simp at failed

end

end Expr

end ParenCalc
