import ParenCalc.Proofs.Session.Roster
/-!
# Idle sessions are evicted

When a session was last used can be told from the history of its registry alone: it is the time of the
last event that created it or that was a call on it.  An eviction removes exactly the sessions that
are listed, not at work, and by this history idle for longer than the timeout; and it comes to the same
whether it removes them at once or looks at one candidate after another.
-/
set_option autoImplicit false

namespace ParenCalc

/-! ## Uses in a history -/

/-- What the clock shows after an action. -/
def Action.clockAfter (clock : Binary64) : Action → Binary64
  | .advance step => clock.add step
  | _ => clock

/-- Whether an action, by its answer, uses the session of an id: it creates the session, or it is a
call that has found it, with whatever outcome. -/
def Action.uses (id : Text) (action : Action) (answer : Answer) : Bool :=
  answer.adds id || (action.callTo? id).isSome && answer.missing? ≠ some id

/-- What the clock showed when some events last used the session of an id, if they did; `clock` is
what it showed before them. -/
def lastUse? (id : Text) (clock : Binary64) : List (Action × Action.Answer) → Option Binary64
  | [] => none
  | (action, answer) :: later =>
    (lastUse? id (action.clockAfter clock) later).or
      (if action.uses id answer then some clock else none)

/-- By some events, at the time `now` the session of an id has been idle for longer than `timeout`. -/
def isIdle (id : Text) (clock : Binary64) (events : List (Action × Action.Answer))
    (timeout now : Binary64) : Bool :=
  (lastUse? id clock events).any fun used => Number.lt (.float timeout) (.float (now.sub used))

namespace Registry

theorem clock_use {α : Type} (id : Text) (act : Interpreter → Except Failure α × Interpreter)
    (r : Registry) : (r.use id act).2.clock = r.clock := by
  rw [rest_use]

theorem clock_perform (r : Registry) (action : Action) :
    (r.perform action).2.clock = action.clockAfter r.clock := by
  cases action with
  | create =>
      rcases r.create_cases with ⟨limit, -, stays⟩ | ⟨-, n, -, -, -, sessions, -, adds⟩
      · rw [stays]
        rfl
      · rw [adds]
        rfl
  | eval other text => exact clock_use other (Interpreter.eval text) r
  | listing other start => exact clock_use other (fun i => (.ok (i.listing start), i)) r
  | valueOf other name => exact clock_use other (fun i => (i.valueOf name, i)) r
  | finish other | close | evict busy now | advance step => rfl

theorem uses_of_call (r : Registry) (sound : r.Sound) (id : Text) (action : Action)
    (call : Interpreter.Call) (calls : action.callTo? id = some call) (live : id ∈ r.sessionIds) :
    action.uses id (r.perform action).1 = true := by
  have found : (r.perform action).1.missing? = none := by
    rw [Action.eq_on_of_callTo? id action call calls, r.missing?_perform sound id call, if_pos live]
  simp [Action.uses, calls, found]

/-- A session was last used by the action, or else when it was last used before. -/
theorem lastUsed_perform (r : Registry) (sound : r.Sound) (action : Action) (id : Text)
    (session : Session) (listed : (r.perform action).2.sessions.get? id = some session) :
    ((if action.uses id (r.perform action).1 then some r.clock else none).or
      ((r.sessions.get? id).map Session.lastUsed)) = some session.lastUsed := by
  rw [get?_perform] at listed
  split at listed
  · simp at listed
  · split at listed
    · rename_i adds
      rw [← Option.some.inj listed]
      simp [Action.uses, adds]
    · rename_i notAdded
      obtain ⟨before, was, rfl⟩ := Option.map_eq_some_iff.mp listed
      cases calls : action.callTo? id with
      | none =>
          have unused : action.uses id (r.perform action).1 = false := by
            simp [Action.uses, notAdded, calls]
          rw [unused, was]
          rfl
      | some call =>
          have live : id ∈ r.sessionIds := (r.sessions.mem_keys_iff id).mpr ⟨before, was⟩
          have used := r.uses_of_call sound id action call calls live
          have opened := (sound id before was).1
          simp [used, Session.after, opened]

/-- A session was last used in the run, or else when it was last used before. -/
theorem lastUsed_run (history : List Action) (r : Registry) (sound : r.Sound) (id : Text)
    (session : Session) (listed : (r.run history).2.sessions.get? id = some session) :
    (lastUse? id r.clock (history.zip (r.run history).1)).or
      ((r.sessions.get? id).map Session.lastUsed) = some session.lastUsed := by
  induction history generalizing r with
  | nil =>
      have same : r.sessions.get? id = some session := listed
      rw [same]
      rfl
  | cons action rest ih =>
      have later := ih (r.perform action).2 (r.sound_perform action sound) listed
      rw [clock_perform] at later
      show ((lastUse? id (action.clockAfter r.clock)
        (rest.zip ((r.perform action).2.run rest).1)).or _).or _ = _
      rw [Option.or_assoc]
      cases used : lastUse? id (action.clockAfter r.clock)
          (rest.zip ((r.perform action).2.run rest).1) with
      | some time =>
          rw [used] at later
          exact later
      | none =>
          -- the run after this action has not used the session, so it was there after the action
          rw [used, Option.none_or] at later
          obtain ⟨between, was, same⟩ := Option.map_eq_some_iff.mp later
          rw [← same]
          exact r.lastUsed_perform sound action id between was

/-! ## What an eviction removes -/

theorem keys_evict (r : Registry) (busy : List Text) (now : Binary64) (due : Text → Bool)
    (same : ∀ id session, r.sessions.get? id = some session →
      r.isDue busy now id session = due id) :
    (r.evict busy now).1 = r.sessionIds.filter due :=
  r.sessions.keys_filter_eq _ due same

theorem entries_evict (r : Registry) (busy : List Text) (now : Binary64) :
    (r.evict busy now).2.sessions.entries =
      r.sessions.entries.filter fun entry => entry.1 ∉ (r.evict busy now).1 := by
  apply List.filter_congr
  rintro ⟨id, session⟩ member
  have listed := (r.sessions.get?_eq_some_iff id session).mpr member
  have removed : id ∈ (r.evict busy now).1 ↔ r.isDue busy now id session = true := by
    rw [mem_evict_iff, listed]
    simp
  simp [removed]

theorem isDue_of_timeout (r : Registry) (busy : List Text) (now timeout : Binary64) (id : Text)
    (session : Session) (limited : r.policy.idleTimeout = some timeout)
    (opened : session.closed = false) :
    r.isDue busy now id session =
      (Number.lt (.float timeout) (.float (now.sub session.lastUsed)) && !busy.contains id) := by
  simp [isDue, limited, opened, Session.idleFor]

theorem evict_of_unlimited (r : Registry) (busy : List Text) (now : Binary64)
    (unlimited : r.policy.idleTimeout = none) : r.evict busy now = ([], r) := by
  obtain ⟨policy, ids, drawn, clock, ⟨entries, nodup⟩⟩ := r
  simp only at unlimited
  simp [evict, isDue, unlimited, OrderedMap.filter, OrderedMap.keys]

/-! ## One candidate after another -/

/-- Whether a session that was idle for too long a moment ago is to go when it is looked at again: it
is still there, not at work, not closed, and has not been used since. -/
def isStillDue (r : Registry) (busy : List Text) (now timeout : Binary64) (id : Text) : Bool :=
  (r.sessions.get? id).any fun session =>
    !busy.contains id && !session.closed &&
      !Comparison.lessEq.compare (.float (session.idleFor now)) (.float timeout)

def dismiss (busy : List Text) (now timeout : Binary64) (found : List Text × Registry) (id : Text) :
    List Text × Registry :=
  if found.2.isStillDue busy now timeout id then (found.1 ++ [id], found.2.finish id) else found

/-- Whether a session has been idle for too long, which makes it a candidate. -/
def isCandidate (now timeout : Binary64) (session : Session) : Bool :=
  Number.lt (.float timeout) (.float (session.idleFor now))

/-- Picks the candidates and then dismisses them one after another. -/
def sweep (busy : List Text) (now : Binary64) (r : Registry) : List Text × Registry :=
  match r.policy.idleTimeout with
  | none => ([], r)
  | some timeout =>
    let candidates := r.sessions.filter fun _ session => isCandidate now timeout session
    candidates.keys.foldl (dismiss busy now timeout) ([], r)

theorem isStillDue_finish (r : Registry) (busy : List Text) (now timeout : Binary64)
    (id other : Text) (different : other ≠ id) :
    (r.finish id).isStillDue busy now timeout other = r.isStillDue busy now timeout other := by
  rw [isStillDue, finish, OrderedMap.get?_erase, if_neg different.symm]
  rfl

theorem foldl_dismiss (busy : List Text) (now timeout : Binary64) (candidates : List Text)
    (found : List Text × Registry) (due : Text → Bool) (distinct : candidates.Nodup)
    (same : ∀ id ∈ candidates, found.2.isStillDue busy now timeout id = due id) :
    candidates.foldl (dismiss busy now timeout) found =
      (found.1 ++ candidates.filter due, { found.2 with
        sessions := found.2.sessions.filter fun id _ => id ∉ candidates.filter due }) := by
  induction candidates generalizing found with
  | nil =>
      have all : found.2.sessions.filter (fun id _ => id ∉ ([] : List Text).filter due) =
          found.2.sessions := by
        apply OrderedMap.eq_of_entries
        simp [OrderedMap.filter]
      rw [all, List.filter_nil, List.append_nil]
      rfl
  | cons id rest ih =>
      obtain ⟨notAmong, restDistinct⟩ := List.nodup_cons.mp distinct
      have sameRest (other : Text) (member : other ∈ rest) :
          found.2.isStillDue busy now timeout other = due other :=
        same other (List.mem_cons_of_mem id member)
      rw [List.foldl_cons, dismiss, same id List.mem_cons_self]
      cases isDue : due id with
      | false =>
          rw [if_neg Bool.false_ne_true, ih found restDistinct sameRest,
            List.filter_cons_of_neg (by simp [isDue])]
      | true =>
          have later := ih (found.1 ++ [id], found.2.finish id) restDistinct (by
            intro other member
            have different : other ≠ id := fun hit => notAmong (hit ▸ member)
            rw [isStillDue_finish _ _ _ _ _ _ different, sameRest other member])
          have left : (found.2.sessions.erase id).filter (fun id _ => id ∉ rest.filter due) =
              found.2.sessions.filter fun other _ => other ∉ id :: rest.filter due := by
            apply OrderedMap.eq_of_entries
            simp [OrderedMap.erase, OrderedMap.filter, List.filter_filter, Bool.and_comm]
          rw [if_pos rfl, later, List.filter_cons_of_pos isDue, List.append_assoc]
          simp only [finish, left]
          rfl

end Registry

theorem Number.order?_swap (a b : Number) : b.order? a = (a.order? b).map Ordering.swap := by
  have swap (x y : Int) : compare y x = (compare x y).swap := Std.OrientedCmp.eq_swap
  unfold order?
  rw [Bool.or_comm]
  split
  · rfl
  · rw [Option.map_some, Ordering.swap_then, swap a.level, swap a.units]

theorem Comparison.lessEq_of_lt (a b : Number) (less : a.lt b = true) :
    lessEq.compare b a = false := by
  have order : a.order? b = some .lt := of_decide_eq_true less
  rw [compare, Number.order?_swap, order]
  rfl

namespace Registry

/-- Looking at one candidate after another comes to the same as removing at once what is due. -/
theorem sweep_eq_evict (r : Registry) (busy : List Text) (now : Binary64) :
    r.sweep busy now = r.evict busy now := by
  unfold sweep
  cases limited : r.policy.idleTimeout with
  | none => exact (r.evict_of_unlimited busy now limited).symm
  | some timeout =>
      have candidates := r.sessions.keys_filter_eq (fun _ => isCandidate now timeout)
        (fun id => (r.sessions.get? id).any (isCandidate now timeout))
        (fun id session listed => by rw [listed]; rfl)
      have swept := foldl_dismiss busy now timeout
        (r.sessions.filter fun _ => isCandidate now timeout).keys ([], r)
        (r.isStillDue busy now timeout) (OrderedMap.nodup _) (fun _ _ => rfl)
      have evicted : (r.evict busy now).1 = (r.sessions.filter fun _ =>
          isCandidate now timeout).keys.filter (r.isStillDue busy now timeout) := by
        rw [candidates, List.filter_filter]
        apply r.keys_evict busy now
        intro id session listed
        simp only [isStillDue, listed, Option.any_some, isDue, limited]
        cases idle : isCandidate now timeout session with
        | false =>
            have short : Number.lt (.float timeout) (.float (session.idleFor now)) = false := idle
            simp [short]
        | true =>
            have reached := Comparison.lessEq_of_lt _ _ idle
            have long : Number.lt (.float timeout) (.float (session.idleFor now)) = true := idle
            simp [reached, long, Bool.and_comm]
      have left : (r.evict busy now).2 = { r with
          sessions := r.sessions.filter fun id _ => id ∉ (r.evict busy now).1 } := by
        have same : (r.evict busy now).2.sessions =
            r.sessions.filter fun id _ => id ∉ (r.evict busy now).1 :=
          OrderedMap.eq_of_entries _ _ (r.entries_evict busy now)
        rw [← same]
        rfl
      dsimp only
      rw [swept, ← evicted, List.nil_append, ← left]

end Registry

/-- Whatever a registry has been through: its sessions were last used when its history says so.  An
eviction of a registry with a timeout removes, in the order of their creation, exactly the sessions
that were created and not removed since, have by this history been idle for longer than the timeout
and are not at work; without a timeout it removes nothing.  What it does not remove it leaves in its
place and as it was, and nothing else changes.  It comes to the same as picking the candidates first
and looking at them again one after another. -/
theorem eviction_is_exact (policy : Policy) (ids : IdSource) (clock : Binary64)
    (history : List Action) (busy : List Text) (now : Binary64) :
    let run := (Registry.start policy ids clock).run history
    let events := history.zip run.1
    let evicted := (run.2.evict busy now).1
    let after := (run.2.evict busy now).2
    (∀ id session, run.2.sessions.get? id = some session →
      lastUse? id clock events = some session.lastUsed) ∧
    (∀ timeout, policy.idleTimeout = some timeout →
      evicted = (survivors events).filter fun id =>
        isIdle id clock events timeout now && !busy.contains id) ∧
    (policy.idleTimeout = none → evicted = [] ∧ after = run.2) ∧
    after = { run.2 with sessions := after.sessions } ∧
    after.sessions.entries = (run.2.sessions.entries.filter fun entry => entry.1 ∉ evicted) ∧
    run.2.sweep busy now = (evicted, after) := by
  intro run events evicted after
  have sound : run.2.Sound := Registry.sound_run _ history (Registry.sound_start policy ids clock)
  have samePolicy : run.2.policy = policy := Registry.policy_run history (.start policy ids clock)
  have lastUsed (id : Text) (session : Session) (listed : run.2.sessions.get? id = some session) :
      lastUse? id clock events = some session.lastUsed := by
    have used := Registry.lastUsed_run history (.start policy ids clock)
      (Registry.sound_start policy ids clock) id session listed
    -- nothing was listed at the start
    rwa [Registry.start, OrderedMap.get?_empty, Option.map_none, Option.or_none] at used
  refine ⟨lastUsed, ?_, ?_, rfl, run.2.entries_evict busy now, run.2.sweep_eq_evict busy now⟩
  · intro timeout limited
    have listed : run.2.sessionIds = survivors events :=
      Registry.sessionIds_run history (.start policy ids clock)
    rw [← listed]
    apply run.2.keys_evict busy now
    intro id session found
    rw [run.2.isDue_of_timeout busy now timeout id session (by rw [samePolicy, limited])
      (sound id session found).1, isIdle, lastUsed id session found, Option.any_some]
  · intro unlimited
    have nothing := run.2.evict_of_unlimited busy now (by rw [samePolicy, unlimited])
    exact ⟨congrArg Prod.fst nothing, congrArg Prod.snd nothing⟩

/-- A text that is refused puts an eviction off: the session has to be idle for longer than the
timeout after it, and not at work then. -/
theorem refused_text_puts_off_eviction :
    let history : List Action :=
      [.create, .advance (.ofInt 6), .eval "s" "(+ 1", .advance (.ofInt 10)]
    let run := (Registry.start ⟨some (.ofInt 10), none⟩ (.ofScript ["s"] 0) (.zero false)).run history
    (run.2.evict [] (.ofInt 16)).1 = [] ∧ (run.2.evict [] (.ofInt 17)).1 = [Text.ofString "s"] ∧
      (run.2.evict ["s"] (.ofInt 17)).1 = [] := by
  intro history run
  have removed (busy : List Text) (now : Binary64) :=
    (eviction_is_exact ⟨some (.ofInt 10), none⟩ (.ofScript ["s"] 0) (.zero false) history busy
      now).2.1 (.ofInt 10) rfl
  refine ⟨(removed [] (.ofInt 16)).trans ?_, (removed [] (.ofInt 17)).trans ?_,
    (removed ["s"] (.ofInt 17)).trans ?_⟩ <;>
  · dsimp only [run, history, Registry.run]
    rw [Registry.create_start]
    decide +kernel

end ParenCalc
