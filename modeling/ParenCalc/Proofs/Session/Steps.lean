import ParenCalc.Session.Action
/-!
# What an action leaves of a session

An action calls at most one session, and does to it what its call does to an interpreter.  Besides
that it may add one session, which is fresh and under an id that was not in use, and remove some.
Every other session stays as it is, in whatever order actions come.
-/
set_option autoImplicit false

namespace ParenCalc

namespace Interpreter

inductive Call
  | eval (text : Text)
  | listing (start : Option Text)
  | valueOf (name : Text)

def Call.on (id : Text) : Call → Action
  | .eval text => .eval id text
  | .listing start => .listing id start
  | .valueOf name => .valueOf id name

/-- The answer to a call, and what the call makes of the interpreter. -/
def serve (i : Interpreter) : Call → Action.Answer × Interpreter
  | .eval text =>
    let (result, i) := i.eval text
    (.value result, i)
  | .listing start => (.bindings (.ok (i.listing start)), i)
  | .valueOf name => (.value (i.valueOf name), i)

def serveAll (i : Interpreter) : List Call → List Action.Answer × Interpreter
  | [] => ([], i)
  | call :: rest =>
    let (answer, i) := i.serve call
    let (answers, i) := i.serveAll rest
    (answer :: answers, i)

end Interpreter

namespace Action

/-- The call that an action makes on the session of an id. -/
def callTo? (id : Text) : Action → Option Interpreter.Call
  | .eval other text => if other = id then some (.eval text) else none
  | .listing other start => if other = id then some (.listing start) else none
  | .valueOf other name => if other = id then some (.valueOf name) else none
  | _ => none

theorem eq_on_of_callTo? (id : Text) (action : Action) (call : Interpreter.Call)
    (calls : action.callTo? id = some call) : action = call.on id := by
  cases action with
  | eval other text | listing other start | valueOf other name =>
      simp only [callTo?] at calls
      split at calls
      · rename_i same
        rw [← Option.some.inj calls, same, Interpreter.Call.on]
      · simp at calls
  | create | finish other | close | evict busy now | advance step => simp [callTo?] at calls

/-- Whether an action, by its answer, adds the session of an id. -/
def Answer.adds (id : Text) : Answer → Bool
  | .created (.ok other) => other = id
  | _ => false

/-- Whether an action, by its answer, removes the session of an id. -/
def removes (id : Text) : Action → Answer → Bool
  | .finish other, _ => other = id
  | .close, _ => true
  | _, .evicted ids => ids.contains id
  | _, _ => false

end Action

/-- A session after an action that may have called it at some time. -/
def Session.after (s : Session) (clock : Binary64) : Option Interpreter.Call → Session
  | none => s
  | some call =>
    if s.closed then s
    else { s with interpreter := (s.interpreter.serve call).2, lastUsed := clock }

namespace IdSource

theorem draw_search_not_mem (ids : IdSource) (live : List Text) (start n : Nat)
    (used : ∀ k, start ≤ k → k < n → ids.draw k ∈ live) :
    ids.draw (ids.search live start n used) ∉ live := by
  fun_induction ids.search live start n used with
  | case1 n used h ih => exact ih
  | case2 n used h => exact h

theorem draw_firstFree_not_mem (ids : IdSource) (live : List Text) (start : Nat) :
    ids.draw (ids.firstFree live start) ∉ live :=
  ids.draw_search_not_mem live start start _

theorem firstFree_of_unused (ids : IdSource) (live : List Text) (start : Nat)
    (unused : ids.draw start ∉ live) : ids.firstFree live start = start := by
  rw [firstFree, search, dif_neg unused]

end IdSource

namespace Registry

/-! ## One action -/

section Use

variable {α : Type} (id : Text) (act : Interpreter → Except Failure α × Interpreter) (r : Registry)

theorem use_of_open (session : Session) (listed : r.sessions.get? id = some session)
    (opened : session.closed = false) :
    r.use id act = ((act session.interpreter).1, { r with
      sessions := r.sessions.insert id
        { session with interpreter := (act session.interpreter).2, lastUsed := r.clock } }) := by
  simp [use, listed, opened]

theorem use_of_shut
    (shut : ∀ session, r.sessions.get? id = some session → session.closed = true) :
    r.use id act = (.error (.fault (.sessionNotFound id)), r) := by
  unfold use
  split
  · rfl
  · rename_i session listed
    rw [if_pos (shut session listed)]

/-- Using a session changes nothing but the sessions. -/
theorem rest_use : (r.use id act).2 = { r with sessions := (r.use id act).2.sessions } := by
  unfold use
  split
  · rfl
  · split <;> rfl

/-- Using a session changes that session alone, and a closed one not at all. -/
theorem get?_use (other : Text) :
    (r.use id act).2.sessions.get? other =
      (r.sessions.get? other).map fun session =>
        if id = other ∧ session.closed = false then
          { session with interpreter := (act session.interpreter).2, lastUsed := r.clock }
        else session := by
  by_cases opened : ∃ session, r.sessions.get? id = some session ∧ session.closed = false
  · obtain ⟨session, listed, opened⟩ := opened
    rw [use_of_open id act r session listed opened, OrderedMap.get?_insert]
    by_cases same : id = other
    · subst same
      simp [listed, opened]
    · simp [same]
  · have shut : ∀ session, r.sessions.get? id = some session → session.closed = true := by
      intro session listed
      simpa using fun notClosed => opened ⟨session, listed, notClosed⟩
    rw [use_of_shut id act r shut]
    cases listed : r.sessions.get? other with
    | none => rfl
    | some session =>
        have unchanged : ¬ (id = other ∧ session.closed = false) := by
          rintro ⟨rfl, notClosed⟩
          exact opened ⟨session, listed, notClosed⟩
        simp [unchanged]

end Use

theorem get?_create (r : Registry) (id : Text) :
    r.create.2.sessions.get? id =
      if (Action.Answer.created r.create.1).adds id then some ⟨.fresh, r.clock, false⟩
      else r.sessions.get? id := by
  have added : (create.add r).2.sessions.get? id =
      if (Action.Answer.created (create.add r).1).adds id then some ⟨.fresh, r.clock, false⟩
      else r.sessions.get? id := by
    simp [create.add, Action.Answer.adds]
  unfold create
  split
  · split
    · simp [Action.Answer.adds]
    · exact added
  · exact added

theorem create_of_unused (r : Registry) (unlimited : r.policy.maxSessions = none)
    (unused : r.ids.draw r.drawn ∉ r.sessionIds) :
    r.create = (.ok (r.ids.draw r.drawn), { r with
      drawn := r.drawn + 1
      sessions := r.sessions.insert (r.ids.draw r.drawn) ⟨.fresh, r.clock, false⟩ }) := by
  simp [create, unlimited, create.add, IdSource.firstFree_of_unused _ _ _ unused]

/-- The first creation of a registry without a limit of sessions, whose first id is given. -/
theorem create_start (idleTimeout : Option Binary64) (id : Text) (clock : Binary64) :
    (start ⟨idleTimeout, none⟩ (.ofScript [id] 0) clock).perform .create =
      (.created (.ok id), ⟨⟨idleTimeout, none⟩, .ofScript [id] 0, 1, clock,
        .insert .empty id ⟨.fresh, clock, false⟩⟩) := by
  have created := create_of_unused (start ⟨idleTimeout, none⟩ (.ofScript [id] 0) clock) rfl
    List.not_mem_nil
  rw [perform, created]
  rfl

theorem get?_of_adds (r : Registry) (id : Text)
    (adds : (Action.Answer.created r.create.1).adds id = true) : r.sessions.get? id = none := by
  have added (adds : (Action.Answer.created (create.add r).1).adds id = true) :
      r.sessions.get? id = none := by
    have unused := r.ids.draw_firstFree_not_mem r.sessionIds r.drawn
    have same : r.ids.draw (r.ids.firstFree r.sessionIds r.drawn) = id := by
      simpa [create.add, Action.Answer.adds] using adds
    rw [same] at unused
    rw [← Option.not_isSome_iff_eq_none]
    intro listed
    obtain ⟨session, listed⟩ := Option.isSome_iff_exists.mp listed
    exact unused ((r.sessions.mem_keys_iff id).mpr ⟨session, listed⟩)
  unfold create at adds
  split at adds
  · split at adds
    · simp [Action.Answer.adds] at adds
    · exact added adds
  · exact added adds

theorem mem_evict_iff (busy : List Text) (now : Binary64) (r : Registry) (id : Text) :
    id ∈ (r.evict busy now).1 ↔
      ∃ session, r.sessions.get? id = some session ∧ r.isDue busy now id session = true := by
  simp [evict, OrderedMap.mem_keys_iff]

theorem get?_evict (busy : List Text) (now : Binary64) (r : Registry) (id : Text) :
    (r.evict busy now).2.sessions.get? id =
      if id ∈ (r.evict busy now).1 then none else r.sessions.get? id := by
  simp only [mem_evict_iff]
  simp only [evict, OrderedMap.get?_filter]
  cases listed : r.sessions.get? id with
  | none => simp
  | some session => cases due : r.isDue busy now id session <;> simp [due]

@[simp]
theorem map_after_none (clock : Binary64) (found : Option Session) :
    (found.map fun session => session.after clock none) = found := by
  cases found <;> rfl

theorem get?_use_call {α : Type} (id other : Text) (call : Interpreter.Call)
    (act : Interpreter → Except Failure α × Interpreter)
    (acts : ∀ i, (act i).2 = (i.serve call).2) (r : Registry) :
    (r.use id act).2.sessions.get? other =
      (r.sessions.get? other).map fun session =>
        session.after r.clock (if id = other then some call else none) := by
  rw [get?_use]
  congr 1
  funext session
  by_cases same : id = other
  · cases closed : session.closed <;> simp [same, closed, Session.after, acts]
  · simp [same, Session.after]

/-- What an action leaves under an id: nothing, a fresh session, or the session that was there after
the call that the action makes on it. -/
theorem get?_perform (r : Registry) (action : Action) (id : Text) :
    (r.perform action).2.sessions.get? id =
      if action.removes id (r.perform action).1 then none
      else if (r.perform action).1.adds id then some ⟨.fresh, r.clock, false⟩
      else (r.sessions.get? id).map fun session => session.after r.clock (action.callTo? id) := by
  cases action with
  | create =>
      simp only [Action.callTo?, map_after_none]
      exact get?_create r id
  | eval other text =>
      exact get?_use_call other id (.eval text) (Interpreter.eval text) (fun _ => rfl) r
  | listing other start =>
      exact get?_use_call other id (.listing start) (fun i => (.ok (i.listing start), i))
        (fun _ => rfl) r
  | valueOf other name =>
      exact get?_use_call other id (.valueOf name) (fun i => (i.valueOf name, i)) (fun _ => rfl) r
  | finish other =>
      simp only [Action.callTo?, map_after_none]
      simpa [Action.removes, Action.Answer.adds, perform, finish] using
        r.sessions.get?_erase other id
  | close => rfl
  | evict busy now =>
      simp only [Action.callTo?, map_after_none]
      simpa [Action.removes, Action.Answer.adds, perform] using get?_evict busy _ r id
  | advance step =>
      simp only [Action.callTo?, map_after_none]
      rfl

/-- A call on an open session is answered by the session's interpreter. -/
theorem answer_perform (r : Registry) (id : Text) (session : Session)
    (listed : r.sessions.get? id = some session) (opened : session.closed = false)
    (call : Interpreter.Call) :
    (r.perform (call.on id)).1 = (session.interpreter.serve call).1 := by
  cases call with
  | eval text =>
      show Action.Answer.value (r.use id (Interpreter.eval text)).1 = _
      rw [use_of_open id _ r session listed opened, Interpreter.serve]
  | listing start =>
      show Action.Answer.bindings (r.use id fun i => (.ok (i.listing start), i)).1 = _
      rw [use_of_open id _ r session listed opened, Interpreter.serve]
  | valueOf name =>
      show Action.Answer.value (r.use id fun i => (i.valueOf name, i)).1 = _
      rw [use_of_open id _ r session listed opened, Interpreter.serve]

end Registry

end ParenCalc
