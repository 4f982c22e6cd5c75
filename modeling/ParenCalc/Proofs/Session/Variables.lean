import Mathlib.Data.List.Nodup
import ParenCalc.Proofs.Session.Replay
/-!
# Three views of a variable

A variable can be asked for by its name, found in the listing of all variables, and evaluated as a
text.  The names that texts bind read back as themselves, so that the three views agree for every
name, also for one that no text could write.
-/
set_option autoImplicit false

namespace ParenCalc

/-- Bindings by the names of their symbols. -/
def byName (bindings : List (Symbol × Number)) : List (Text × Number) :=
  bindings.map fun binding => (binding.1.name, binding.2)

theorem mem_byName_iff (bindings : List (Symbol × Number)) (name : Text) (value : Number) :
    (name, value) ∈ byName bindings ↔ ∃ x : Symbol, x.name = name ∧ (x, value) ∈ bindings := by
  rw [byName, List.mem_map]
  constructor
  · rintro ⟨⟨x, bound⟩, member, same⟩
    rw [Prod.mk.injEq] at same
    obtain ⟨named, rfl⟩ := same
    exact ⟨x, named, member⟩
  · rintro ⟨x, rfl, member⟩
    exact ⟨(x, value), member, rfl⟩

namespace Interpreter

variable (i : Interpreter) (name : Text)

theorem nodup_byName_bindings : ((byName i.bindings).map Prod.fst).Nodup := by
  have names : (byName i.bindings).map Prod.fst = (i.bindings.map Prod.fst).map Symbol.name := by
    simp only [byName, List.map_map, Function.comp_def]
  rw [names]
  apply List.Nodup.map _ i.frame.nodup
  intro x y same
  exact (Symbol.eq_iff_name x y).mpr same

theorem valueOf_eq_ok_iff (value : Number) :
    i.valueOf name = .ok value ↔ (name, value) ∈ byName i.bindings := by
  rw [mem_byName_iff]
  cases read : Symbol.ofText? name with
  | none =>
      -- no symbol has this name, so that nothing is bound to it
      have absent (x : Symbol) : x.name ≠ name := by
        intro named
        rw [(Symbol.ofText?_eq_some_iff name x).mpr named] at read
        simp at read
      simp [valueOf, read, absent]
  | some x =>
      have named := (Symbol.ofText?_eq_some_iff name x).mp read
      have only (y : Symbol) : y.name = name ↔ y = x := by rw [Symbol.eq_iff_name, named]
      simp only [only, exists_eq_left]
      rw [bindings, ← OrderedMap.get?_eq_some_iff]
      simp only [valueOf, read, Option.bind_some]
      cases i.frame.get? x <;> simp

theorem valueOf_of_unbound (unbound : ∀ value, (name, value) ∉ byName i.bindings) :
    i.valueOf name = .error (.fault (.undefined name)) := by
  cases result : i.valueOf name with
  | ok value => exact absurd ((i.valueOf_eq_ok_iff name value).mp result) (unbound value)
  | error failure =>
      unfold valueOf at result
      split at result
      · simp at result
      · rw [← Except.error.inj result]

/-- A variable of an interpreter that texts have led to is a text that reads as its symbol. -/
theorem eval_name (reachable : i.Reachable .empty) (value : Number)
    (found : i.valueOf name = .ok value) : i.eval name = (.ok value, i) := by
  obtain ⟨x, rfl, member⟩ :=
    (mem_byName_iff i.bindings name value).mp ((i.valueOf_eq_ok_iff name value).mp found)
  obtain ⟨-, notNumeric⟩ := (i.replayable_of_reachable reachable (x, value) member).1
  have read := read_of_writes x.name (.symbol x) (Expr.writes_symbol x notNumeric)
  have bound := (i.frame.get?_eq_some_iff x value).mpr member
  have built : Expr.build formRoom (.symbol x) = .ok (.reference x) := rfl
  have run : interpret formRoom x.name (.root i.frame) = (.ok value, .root i.frame) := by
    simp only [interpret, read, Datum.eval, built, Expr.eval, Scope.lookup?_root, bound]
  rw [eval, run]
  rfl

theorem listing_some (start : Text) :
    i.listing (some start) = i.bindings.filter fun binding => start <+: binding.1.name := by
  simp only [listing, ← List.isPrefixOf_iff_prefix, Bool.decide_eq_true]

end Interpreter

/-- Using a session leaves all interpreters as they are if it leaves its own as it is. -/
theorem Registry.interpreter_use {α : Type} (r : Registry) (id : Text)
    (act : Interpreter → Except Failure α × Interpreter)
    (still : ∀ session, r.sessions.get? id = some session →
      (act session.interpreter).2 = session.interpreter) (other : Text) :
    ((r.use id act).2.sessions.get? other).map Session.interpreter =
      (r.sessions.get? other).map Session.interpreter := by
  rw [get?_use, Option.map_map]
  cases listed : r.sessions.get? other with
  | none => rfl
  | some session =>
      rw [Option.map_some, Option.map_some, Function.comp_apply]
      split
      · rename_i used
        obtain ⟨rfl, -⟩ := used
        exact congrArg some (still session listed)
      · rfl

/-- Whatever a registry has been through: in each session that is listed, every name has a value if
and only if the listing has it, and is undefined otherwise.  A name that has a value is a text that
evaluates to this value and changes no variable of any session.  The listing with a prefix is the
part of the whole listing, in its order, whose names begin with the prefix. -/
theorem variable_views_agree (policy : Policy) (ids : IdSource) (clock : Binary64)
    (history : List Action) (id : Text) :
    let r := ((Registry.start policy ids clock).run history).2
    id ∈ r.sessionIds →
      ∃ bindings : List (Symbol × Number), (r.listing id none).1 = .ok bindings ∧
        ((byName bindings).map Prod.fst).Nodup ∧
        (∀ name value, (r.valueOf id name).1 = .ok value ↔ (name, value) ∈ byName bindings) ∧
        (∀ name, (∀ value, (name, value) ∉ byName bindings) →
          (r.valueOf id name).1 = .error (.fault (.undefined name))) ∧
        (∀ name value, (r.valueOf id name).1 = .ok value →
          (r.eval id name).1 = .ok value ∧
          ∀ other, ((r.eval id name).2.sessions.get? other).map Session.interpreter =
            (r.sessions.get? other).map Session.interpreter) ∧
        ∀ start, (r.listing id (some start)).1 =
          .ok (bindings.filter fun binding => start <+: binding.1.name) := by
  intro r live
  have sound : r.Sound := Registry.sound_run _ history (Registry.sound_start policy ids clock)
  obtain ⟨session, listed⟩ := (r.sessions.mem_keys_iff id).mp live
  obtain ⟨opened, reachable⟩ := sound id session listed
  have asked (name : Text) : (r.valueOf id name).1 = session.interpreter.valueOf name := by
    rw [Registry.valueOf, Registry.use_of_open id _ r session listed opened]
  have shown (start : Option Text) :
      (r.listing id start).1 = .ok (session.interpreter.listing start) := by
    rw [Registry.listing, Registry.use_of_open id _ r session listed opened]
  refine ⟨session.interpreter.bindings, shown none, session.interpreter.nodup_byName_bindings,
    ?_, ?_, ?_, ?_⟩
  · intro name value
    rw [asked]
    exact session.interpreter.valueOf_eq_ok_iff name value
  · intro name unbound
    rw [asked]
    exact session.interpreter.valueOf_of_unbound name unbound
  · intro name value found
    rw [asked] at found
    have run := session.interpreter.eval_name name reachable value found
    constructor
    · rw [Registry.eval, Registry.use_of_open id _ r session listed opened, run]
    · apply Registry.interpreter_use
      intro other otherListed
      obtain rfl : session = other := Option.some.inj (listed.symm.trans otherListed)
      rw [run]
  · intro start
    rw [shown, Interpreter.listing_some]

/-- A variable that is seen in all three ways, and a name that no text could write. -/
theorem tax_is_seen_and_parenthesis_is_undefined :
    let history : List Action :=
      [.create, .eval "s" "(define tax 5)", .eval "s" "(define net (- 20 tax))"]
    let r := ((Registry.start ⟨none, none⟩ (.ofScript ["s"] 0) (.zero false)).run history).2
    Text.ofString "s" ∈ r.sessionIds ∧
      ∃ bindings : List (Symbol × Number), (r.listing "s" none).1 = .ok bindings ∧
        (Text.ofString "tax", .int 5) ∈ byName bindings ∧ (r.eval "s" "tax").1 = .ok (.int 5) ∧
        (r.valueOf "s" "(").1 = .error (.fault (.undefined "(")) ∧
        (r.listing "s" (some "ta")).1 =
          .ok (bindings.filter fun binding => Text.ofString "ta" <+: binding.1.name) := by
  intro history r
  obtain ⟨live, tax, parenthesis⟩ : Text.ofString "s" ∈ r.sessionIds ∧
      (r.valueOf "s" "tax").1.toOption = some (.int 5) ∧
      (r.valueOf "s" "(").1.toOption = none := by
    dsimp only [r, history, Registry.run]
    rw [Registry.create_start]
    decide +kernel
  obtain ⟨bindings, listed, -, asked, undefined, evaluated, starting⟩ :=
    variable_views_agree ⟨none, none⟩ (.ofScript ["s"] 0) (.zero false) history "s" live
  have found : (r.valueOf "s" "tax").1 = .ok (.int 5) := by
    cases result : (r.valueOf "s" "tax").1 with
    | error failure => simp [result, Except.toOption] at tax
    | ok value =>
        rw [result] at tax
        rw [Option.some.inj tax]
  have unbound (value : Number) : (Text.ofString "(", value) ∉ byName bindings := by
    intro member
    have bound : (r.valueOf "s" "(").1 = .ok value := (asked "(" value).mpr member
    simp [bound, Except.toOption] at parenthesis
  exact ⟨live, bindings, listed, (asked "tax" _).mp found, (evaluated "tax" _ found).1,
    undefined "(" unbound, starting "ta"⟩

end ParenCalc
