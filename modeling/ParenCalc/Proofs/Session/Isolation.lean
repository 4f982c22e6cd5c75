import ParenCalc.Proofs.Session.Steps
/-!
# Sessions are isolated

A run of a registry interleaves the calls on many sessions, and sessions come and go meanwhile.
Seen from one session, from its creation until it is removed, the run is that of one fresh
interpreter that is given the calls on this session alone: the relation kept is that the session is
open and holds what this interpreter has come to.
-/
set_option autoImplicit false

namespace ParenCalc

def callsTo (id : Text) (history : List Action) : List Interpreter.Call :=
  history.filterMap (Action.callTo? id)

/-- Those of the answers to a history that the calls on the session of an id were given. -/
def answersTo (id : Text) : List Action → List Action.Answer → List Action.Answer
  | action :: history, answer :: answers =>
    if (action.callTo? id).isSome then answer :: answersTo id history answers
    else answersTo id history answers
  | _, _ => []

/-- By the answers to it, a history does not remove the session of an id. -/
def Keeps (id : Text) (history : List Action) (answers : List Action.Answer) : Prop :=
  ∀ pair ∈ history.zip answers, pair.1.removes id pair.2 = false

namespace Registry

/-- The session of an id is open and its interpreter is `i`. -/
def Holds (r : Registry) (id : Text) (i : Interpreter) : Prop :=
  ∃ session, r.sessions.get? id = some session ∧ session.closed = false ∧ session.interpreter = i

/-! ## One action -/

theorem adds_of_listed (r : Registry) (action : Action) (id : Text) (session : Session)
    (listed : r.sessions.get? id = some session) : (r.perform action).1.adds id = false := by
  cases action with
  | create =>
      rw [Bool.eq_false_iff]
      intro adds
      -- an id that is drawn for a new session is in use by none
      have unused := get?_of_adds r id adds
      simp [listed] at unused
  | eval other text | listing other start | valueOf other name | finish other | close
  | evict busy now | advance step => rfl

theorem listed_perform (r : Registry) (action : Action) (id : Text) (session : Session)
    (listed : r.sessions.get? id = some session)
    (kept : action.removes id (r.perform action).1 = false) :
    (r.perform action).2.sessions.get? id =
      some (session.after r.clock (action.callTo? id)) := by
  have notAdded := adds_of_listed r action id session listed
  rw [get?_perform, kept, notAdded, listed]
  rfl

/-- An action that makes no call on a session and does not remove it leaves it alone. -/
theorem holds_of_other (r : Registry) (action : Action) (id : Text) (i : Interpreter)
    (holds : r.Holds id i) (other : action.callTo? id = none)
    (kept : action.removes id (r.perform action).1 = false) :
    (r.perform action).2.Holds id i := by
  obtain ⟨session, listed, opened, same⟩ := holds
  have after := listed_perform r action id session listed kept
  rw [other] at after
  exact ⟨session, after, opened, same⟩

/-- A call on a session is answered by its interpreter, and the session holds what the call makes
of it. -/
theorem holds_of_call (r : Registry) (action : Action) (id : Text) (i : Interpreter)
    (holds : r.Holds id i) (call : Interpreter.Call) (calls : action.callTo? id = some call)
    (kept : action.removes id (r.perform action).1 = false) :
    (r.perform action).1 = (i.serve call).1 ∧ (r.perform action).2.Holds id (i.serve call).2 := by
  obtain ⟨session, listed, opened, rfl⟩ := holds
  have after := listed_perform r action id session listed kept
  rw [calls, Session.after, if_neg (by simp [opened])] at after
  have answer := answer_perform r id session listed opened call
  rw [← Action.eq_on_of_callTo? id action call calls] at answer
  exact ⟨answer, _, after, opened, rfl⟩

theorem holds_of_created (r : Registry) (id : Text)
    (created : (r.perform .create).1 = .created (.ok id)) :
    (r.perform .create).2.Holds id .fresh := by
  have after := get?_perform r .create id
  rw [created] at after
  exact ⟨⟨.fresh, r.clock, false⟩, by simpa [Action.removes, Action.Answer.adds] using after, rfl,
    rfl⟩

/-! ## A run -/

/-- From a session that is open, the calls on it are answered as its interpreter alone would answer
them, whatever else happens. -/
theorem holds_run (history : List Action) (r : Registry) (id : Text) (i : Interpreter)
    (holds : r.Holds id i) (kept : Keeps id history (r.run history).1) :
    answersTo id history (r.run history).1 = (i.serveAll (callsTo id history)).1 ∧
      (r.run history).2.Holds id (i.serveAll (callsTo id history)).2 := by
  -- the interpreter has to vary with the registry: it is the one that has served the calls so far
  induction history generalizing r i with
  | nil => exact ⟨rfl, holds⟩
  | cons action rest ih =>
      have keptFirst : action.removes id (r.perform action).1 = false :=
        kept (action, (r.perform action).1) (by simp [run])
      have keptRest : Keeps id rest ((r.perform action).2.run rest).1 := by
        intro pair member
        exact kept pair (by simp [run, member])
      cases calls : action.callTo? id with
      | none =>
          have next := holds_of_other r action id i holds calls keptFirst
          simpa [run, answersTo, callsTo, calls] using ih (r.perform action).2 i next keptRest
      | some call =>
          obtain ⟨answer, next⟩ := holds_of_call r action id i holds call calls keptFirst
          simpa [run, answersTo, callsTo, calls, answer, Interpreter.serveAll] using
            ih (r.perform action).2 (i.serve call).2 next keptRest

end Registry

/-- Whatever a registry has been through when it creates a session, and whatever is asked of it
until that session is removed: the calls on the session are answered as a fresh interpreter answers
them that is given nothing else, and the session holds what this interpreter has come to.  An
action that makes no call on the session and does not remove it leaves it so. -/
theorem session_is_isolated (policy : Policy) (ids : IdSource) (clock : Binary64)
    (before during : List Action) (id : Text) :
    let opened := ((Registry.start policy ids clock).run before).2.perform .create
    let after := opened.2.run during
    let alone := Interpreter.fresh.serveAll (callsTo id during)
    opened.1 = .created (.ok id) → Keeps id during after.1 →
      answersTo id during after.1 = alone.1 ∧
      after.2.Holds id alone.2 ∧
      ∀ action, action.callTo? id = none → action.removes id (after.2.perform action).1 = false →
        (after.2.perform action).2.Holds id alone.2 := by
  intro opened after alone created kept
  have first : opened.2.Holds id .fresh := Registry.holds_of_created _ id created
  obtain ⟨answers, last⟩ := Registry.holds_run during opened.2 id .fresh first kept
  refine ⟨answers, last, ?_⟩
  intro action other spared
  exact Registry.holds_of_other after.2 action id alone.2 last other spared

/-- The second session of two, while both define the same name and the first is ended. -/
theorem second_session_is_isolated :
    let ids := IdSource.ofScript ["a", "b"] 0
    let during : List Action :=
      [.eval "b" "(define x 1)", .eval "a" "(define x 2)", .valueOf "b" "x", .finish "a",
        .listing "b" none]
    let opened := ((Registry.start ⟨none, none⟩ ids (.zero false)).run [.create]).2.perform .create
    opened.1 = .created (.ok "b") ∧ Keeps "b" during (opened.2.run during).1 ∧
      answersTo "b" during (opened.2.run during).1 =
        (Interpreter.fresh.serveAll (callsTo "b" during)).1 := by
  intro ids during opened
  have created : opened.1 = .created (.ok "b") := by
    have first := Registry.create_of_unused (.start ⟨none, none⟩ ids (.zero false)) rfl
      (by decide +kernel)
    have second := Registry.create_of_unused (Registry.create (.start ⟨none, none⟩ ids
      (.zero false))).2 (by rw [first]; rfl) (by rw [first]; decide +kernel)
    show Action.Answer.created (Registry.create (Registry.create (.start ⟨none, none⟩ ids
      (.zero false))).2).1 = _
    rw [second, first]
    rfl
  have kept : Keeps "b" during (opened.2.run during).1 := by
    intro pair member
    simp only [during, Registry.run, Registry.perform, List.zip_cons_cons, List.zip_nil_left,
      List.mem_cons, List.not_mem_nil, or_false] at member
    rcases member with rfl | rfl | rfl | rfl | rfl <;> rfl
  exact ⟨created, kept, (session_is_isolated ⟨none, none⟩ ids (.zero false) [.create] during "b"
    created kept).1⟩

end ParenCalc
