import ParenCalc.Proofs.Eval.Completions
import ParenCalc.Proofs.Expr.Printing
import ParenCalc.Proofs.Session.Roster
/-!
# Bindings written out and replayed

A session can be rebuilt from the list of its variables.  Written out as definitions, in their order,
they are texts that a fresh interpreter accepts, and what it comes to is bound to the same numbers
under the same names in the same order, whether the texts arrive one by one or as one text.
-/
set_option autoImplicit false

namespace ParenCalc

/-- The text that defines a name as a number. -/
def definitionOf (binding : Symbol × Number) : Text :=
  "(define " ++ binding.1.name ++ " " ++ binding.2.literal ++ ")"

def Datum.ofBinding (binding : Symbol × Number) : Datum :=
  .list [.symbol .define, .symbol binding.1, .number binding.2]

/-- A binding that a text can make. -/
def Replayable (binding : Symbol × Number) : Prop :=
  binding.1.Bindable ∧ binding.2.isAdmissible = true

/-! ## One definition -/

theorem writes_definitionOf (binding : Symbol × Number) (replayable : Replayable binding) :
    Writes (definitionOf binding) (Datum.ofBinding binding) := by
  have written := Expr.writes_source (.definition binding.1 (.literal binding.2)) replayable
  have same : Expr.source (.definition binding.1 (.literal binding.2)) = definitionOf binding := by
    simp [Expr.source, Expr.joinedForm, Expr.head, definitionOf, Symbol.define, Text.ofString]
  rw [same] at written
  exact written

theorem Datum.eval_ofBinding (room : Nat) (enough : 3 ≤ room) (text : Text)
    (binding : Symbol × Number) (s : Scope) (bindable : binding.1.Bindable) :
    (ofBinding binding).eval room text s = (.ok binding.2, s.define binding.1 binding.2) := by
  have nonempty : room ≠ 0 := by omega
  have inside : room - 2 ≠ 0 := by omega
  have built : Expr.build room (ofBinding binding) =
      .ok (.definition binding.1 (.literal binding.2)) := by
    simp [ofBinding, Expr.build, Expr.buildDefinition, bindable.1, Except.map, nonempty, inside]
  rw [eval, built]
  simp only [Expr.eval]

theorem Interpreter.eval_definitionOf (binding : Symbol × Number) (i : Interpreter)
    (replayable : Replayable binding) :
    i.eval (definitionOf binding) = (.ok binding.2, ⟨i.frame.insert binding.1 binding.2⟩) := by
  have read := read_of_writes _ _ (writes_definitionOf binding replayable)
  rw [eval, interpret, read]
  dsimp only
  rw [Datum.eval_ofBinding formRoom (by decide) _ binding _ replayable.1]
  rfl

/-! ## All of them -/

section Bindings

variable (bindings : List (Symbol × Number))
  (replayable : ∀ binding ∈ bindings, Replayable binding)

include replayable

theorem Interpreter.serveAll_definitions (i : Interpreter) :
    i.serveAll (bindings.map fun binding => .eval (definitionOf binding)) =
      (bindings.map fun binding => .value (.ok binding.2), ⟨Frame.defineAll i.frame bindings⟩) := by
  induction bindings generalizing i with
  | nil => rfl
  | cons binding rest ih =>
      have first := i.eval_definitionOf binding (replayable binding List.mem_cons_self)
      have later := ih (fun other member => replayable other (List.mem_cons_of_mem binding member))
        ⟨i.frame.insert binding.1 binding.2⟩
      rw [List.map_cons, serveAll, serve, first]
      dsimp only
      rw [later]
      rfl

theorem Datum.evalEach_definitions (room : Nat) (enough : 3 ≤ room) (text : Text) (s : Scope) :
    evalEach room text none (bindings.map ofBinding) s =
      (.ok (bindings.map Prod.snd), { s with frame := Frame.defineAll s.frame bindings }) := by
  induction bindings generalizing s with
  | nil => rfl
  | cons binding rest ih =>
      have first := eval_ofBinding room enough text binding s
        (replayable binding List.mem_cons_self).1
      have later := ih (fun other member => replayable other (List.mem_cons_of_mem binding member))
        (s.define binding.1 binding.2)
      rw [List.map_cons, evalEach, first]
      dsimp only
      rw [later]
      rfl

theorem writesAll_definitions :
    WritesAll (Text.joined "\n" (bindings.map definitionOf)) (bindings.map Datum.ofBinding) := by
  have each (some : List (Symbol × Number)) (among : ∀ binding ∈ some, Replayable binding) :
      List.Forall₂ Writes (some.map definitionOf) (some.map Datum.ofBinding) := by
    induction some with
    | nil => exact .nil
    | cons binding rest ih =>
        exact .cons (writes_definitionOf binding (among binding List.mem_cons_self))
          (ih fun other member => among other (List.mem_cons_of_mem binding member))
  cases bindings with
  | nil => exact ⟨[], spells_nil, .nil⟩
  | cons binding rest =>
      obtain ⟨own, others⟩ := List.forall₂_cons.mp (each (binding :: rest) replayable)
      obtain ⟨later, stops⟩ := writesAll_items "\n" (by decide) (by decide) _ _ others
      rw [List.map_cons, List.map_cons, Text.joined_cons]
      exact writesAll_append _ _ [Datum.ofBinding binding] _ (writesAll_of_writes _ _ own) later stops

theorem Interpreter.evalAll_definitions (i : Interpreter) :
    i.evalAll (Text.joined "\n" (bindings.map definitionOf)) =
      (.ok (bindings.map Prod.snd), ⟨Frame.defineAll i.frame bindings⟩) := by
  obtain ⟨tokens, spelled, rendered⟩ := writesAll_definitions bindings replayable
  have forms : (Scan.ofText (Text.joined "\n" (bindings.map definitionOf))).forms =
      ⟨bindings.map Datum.ofBinding, none, ⟨[], none⟩⟩ := by
    have whole := Scan.forms_rendersAll none [] tokens _ rendered
    rw [Scan.forms_of_none ⟨[], none⟩ ⟨[], none⟩ rfl] at whole
    rw [ofText_of_spells _ tokens spelled]
    simpa using whole
  unfold evalAll interpretAll
  dsimp only
  rw [forms, Datum.evalEach_definitions bindings replayable batchRoom (by decide)]
  rfl

end Bindings

/-- What an interpreter has come to is made of bindings that a text can make. -/
theorem Interpreter.replayable_of_reachable (i : Interpreter) (reachable : i.Reachable .empty) :
    ∀ binding ∈ i.bindings, Replayable binding := by
  have grown := grows_of_reachable .empty i Frame.admissible_empty reachable
  intro binding member
  refine ⟨?_, ?_⟩
  · have bound : binding.1 ∈ i.frame.keys := List.mem_map_of_mem member
    exact (grown.named binding.1 bound).resolve_left List.not_mem_nil
  · have found := (i.frame.get?_eq_some_iff binding.1 binding.2).mpr member
    exact grown.admissible binding.1 binding.2 found

/-- Whatever a registry has been through: each session that is listed has an ordered list of
variables.  A fresh interpreter that is given their definitions in this order answers each with the
number that it defines, and has the same bindings in the same order then; and so it does when it is
given the definitions as one text, one on a line. -/
theorem variables_can_be_replayed (policy : Policy) (ids : IdSource) (clock : Binary64)
    (history : List Action) (id : Text) :
    let r := ((Registry.start policy ids clock).run history).2
    id ∈ r.sessionIds →
      ∃ bindings : List (Symbol × Number), (r.listing id none).1 = .ok bindings ∧
        ∃ replayed : Interpreter, replayed.bindings = bindings ∧
          Interpreter.fresh.serveAll (bindings.map fun binding => .eval (definitionOf binding)) =
            (bindings.map fun binding => .value (.ok binding.2), replayed) ∧
          Interpreter.fresh.evalAll (Text.joined "\n" (bindings.map definitionOf)) =
            (.ok (bindings.map Prod.snd), replayed) := by
  intro r live
  have sound : r.Sound := Registry.sound_run _ history (Registry.sound_start policy ids clock)
  obtain ⟨session, listed⟩ := (r.sessions.mem_keys_iff id).mp live
  obtain ⟨opened, reachable⟩ := sound id session listed
  have replayable := session.interpreter.replayable_of_reachable reachable
  refine ⟨session.interpreter.bindings, ?_, ⟨Frame.defineAll .empty session.interpreter.bindings⟩,
    ?_, ?_, ?_⟩
  · rw [Registry.listing, Registry.use_of_open id _ r session listed opened]
    rfl
  · exact OrderedMap.entries_ofList _ session.interpreter.frame.nodup
  · exact Interpreter.serveAll_definitions _ replayable .fresh
  · exact Interpreter.evalAll_definitions _ replayable .fresh

/-- A session that has defined a great double and a negative integer. -/
theorem great_and_negative_can_be_replayed :
    let history : List Action :=
      [.create, .eval "s" "(define rate 1.5e300)", .eval "s" "(define n (- 2 9))"]
    let r := ((Registry.start ⟨none, none⟩ (.ofScript ["s"] 0) (.zero false)).run history).2
    Text.ofString "s" ∈ r.sessionIds ∧
      ∃ bindings : List (Symbol × Number), (r.listing "s" none).1 = .ok bindings ∧
        bindings.length = 2 ∧ ∃ replayed : Interpreter, replayed.bindings = bindings ∧
          Interpreter.fresh.evalAll (Text.joined "\n" (bindings.map definitionOf)) =
            (.ok (bindings.map Prod.snd), replayed) := by
  intro history r
  have live : Text.ofString "s" ∈ r.sessionIds := by
    dsimp only [r, history, Registry.run]
    rw [Registry.create_start]
    decide +kernel
  obtain ⟨bindings, listed, replayed, same, -, whole⟩ :=
    variables_can_be_replayed ⟨none, none⟩ (.ofScript ["s"] 0) (.zero false) history "s" live
  have two : (r.listing "s" none).1.toOption.map List.length = some 2 := by
    dsimp only [r, history, Registry.run]
    rw [Registry.create_start]
    decide +kernel
  rw [listed] at two
  exact ⟨live, bindings, listed, Option.some.inj two, replayed, same, whole⟩

end ParenCalc
