import ParenCalc.Proofs.Session.Safety
/-!
# Who is listed

A registry lists exactly the sessions that were created and not removed since, in the order of their
creation, and never more than it allows.  Every action either keeps those it lists, or drops the
ones it removes, or puts one new id last: the list after a run follows from this one step.
-/
set_option autoImplicit false

namespace ParenCalc

/-! ## What a history leaves listed -/

/-- The ids that an action, by its answer, has created: one at most. -/
def Action.Answer.newIds : Answer → List Text
  | .created (.ok id) => [id]
  | _ => []

/-- No event removes the session of an id. -/
def isSpared (id : Text) (events : List (Action × Action.Answer)) : Bool :=
  events.all fun event => !event.1.removes id event.2

/-- The ids created by some events that no later event removes, in the order of their creation. -/
def survivors : List (Action × Action.Answer) → List Text
  | [] => []
  | (_, answer) :: later =>
    (answer.newIds.filter fun id => isSpared id later) ++ survivors later

/-- The id that an answer says there is no session of. -/
def Action.Answer.missing? : Answer → Option Text
  | .value (.error (.fault (.sessionNotFound id))) => some id
  | .bindings (.error (.fault (.sessionNotFound id))) => some id
  | _ => none

namespace IdSource

theorem used_of_lt_search (ids : IdSource) (live : List Text) (start n : Nat)
    (used : ∀ k, start ≤ k → k < n → ids.draw k ∈ live) :
    n ≤ ids.search live start n used ∧
      ∀ k, start ≤ k → k < ids.search live start n used → ids.draw k ∈ live := by
  fun_induction ids.search live start n used with
  | case1 n used h ih => exact ⟨by omega, ih.2⟩
  | case2 n used h => exact ⟨Nat.le_refl n, used⟩

theorem used_of_lt_firstFree (ids : IdSource) (live : List Text) (start : Nat) :
    start ≤ ids.firstFree live start ∧
      ∀ k, start ≤ k → k < ids.firstFree live start → ids.draw k ∈ live :=
  ids.used_of_lt_search live start start _

end IdSource

namespace Registry

/-- A registry has as many sessions as it allows. -/
def IsFull (r : Registry) (limit : Int) : Prop :=
  r.policy.maxSessions = some limit ∧ limit ≤ (r.size : Int)

/-- A creation draws ids up to the first one that is not in use and puts an empty session under it,
last in the list; nothing else changes. -/
def CreatesNext (r : Registry) : Prop :=
  ∃ n, r.drawn ≤ n ∧ (∀ k, r.drawn ≤ k → k < n → r.ids.draw k ∈ r.sessionIds) ∧
    r.ids.draw n ∉ r.sessionIds ∧
    ∃ sessions : OrderedMap Text Session,
      sessions.entries = r.sessions.entries ++ [(r.ids.draw n, ⟨.fresh, r.clock, false⟩)] ∧
      r.perform .create =
        (.created (.ok (r.ids.draw n)), { r with drawn := n + 1, sessions := sessions })

theorem size_eq_length (r : Registry) : r.size = r.sessionIds.length :=
  (List.length_map Prod.fst).symm

/-! ## Creations -/

theorem perform_create_of_full (r : Registry) (limit : Int) (full : r.IsFull limit) :
    r.perform .create = (.created (.error (.fault (.sessionLimit limit))), r) := by
  simp [perform, create, full.1, full.2]

theorem createsNext_of_room (r : Registry) (room : ∀ limit, ¬ r.IsFull limit) :
    r.CreatesNext := by
  have unused := r.ids.draw_firstFree_not_mem r.sessionIds r.drawn
  obtain ⟨low, used⟩ := r.ids.used_of_lt_firstFree r.sessionIds r.drawn
  refine ⟨_, low, used, unused, _, r.sessions.entries_insert_of_not_mem _ _ unused, ?_⟩
  have added : r.create = create.add r := by
    unfold create
    cases limited : r.policy.maxSessions with
    | none => rfl
    | some limit =>
        have below : ¬ limit ≤ (r.size : Int) := fun reached => room limit ⟨limited, reached⟩
        exact if_neg below
  simp only [perform, added, create.add]

/-- A creation is refused because of a limit, or goes through. -/
theorem create_cases (r : Registry) :
    (∃ limit, r.IsFull limit ∧
      r.perform .create = (.created (.error (.fault (.sessionLimit limit))), r)) ∨
    (∀ limit, ¬ r.IsFull limit) ∧ r.CreatesNext := by
  by_cases full : ∃ limit, r.IsFull limit
  · obtain ⟨limit, full⟩ := full
    exact .inl ⟨limit, full, r.perform_create_of_full limit full⟩
  · exact .inr ⟨not_exists.mp full, r.createsNext_of_room (not_exists.mp full)⟩

theorem create_eq_limit_iff (r : Registry) (limit : Int) :
    (r.perform .create).1 = .created (.error (.fault (.sessionLimit limit))) ↔ r.IsFull limit := by
  refine ⟨?_, fun full => by rw [r.perform_create_of_full limit full]⟩
  intro refused
  rcases r.create_cases with ⟨other, full, stays⟩ | ⟨-, n, -, -, -, sessions, -, adds⟩
  · rw [stays] at refused
    cases refused
    exact full
  · rw [adds] at refused
    cases refused

theorem perform_create_of_error (r : Registry) (failure : Failure)
    (failed : (r.perform .create).1 = .created (.error failure)) :
    (r.perform .create).2 = r := by
  rcases r.create_cases with ⟨limit, -, stays⟩ | ⟨-, n, -, -, -, sessions, -, adds⟩
  · rw [stays]
  · rw [adds] at failed
    cases failed

/-! ## One action -/

theorem sessionIds_use {α : Type} (id : Text)
    (act : Interpreter → Except Failure α × Interpreter) (r : Registry) :
    (r.use id act).2.sessionIds = r.sessionIds := by
  unfold use
  split
  · rfl
  · rename_i session listed
    split
    · rfl
    · have mem : id ∈ r.sessions.keys := (r.sessions.mem_keys_iff id).mpr ⟨session, listed⟩
      dsimp only [sessionIds]
      rw [OrderedMap.keys_insert, if_pos mem]

theorem sessionIds_create (r : Registry) :
    (r.perform .create).2.sessionIds = r.sessionIds ++ (r.perform .create).1.newIds := by
  rcases r.create_cases with ⟨limit, -, stays⟩ | ⟨-, n, -, -, -, sessions, appended, adds⟩
  · rw [stays]
    exact (List.append_nil _).symm
  · rw [adds]
    simp [sessionIds, OrderedMap.keys, appended, Action.Answer.newIds]

theorem eq_filter_true (ids : List Text) : ids = (ids.filter fun _ => true) ++ [] := by
  rw [List.append_nil, List.filter_eq_self.mpr fun _ _ => rfl]

/-- An action drops the ids that it removes and puts the one that it creates last. -/
theorem sessionIds_perform (r : Registry) (action : Action) :
    (r.perform action).2.sessionIds =
      (r.sessionIds.filter fun id => !action.removes id (r.perform action).1) ++
        (r.perform action).1.newIds := by
  cases action with
  | create =>
      rw [sessionIds_create]
      congr 1
      exact (List.filter_eq_self.mpr fun _ _ => rfl).symm
  | eval other text =>
      exact (sessionIds_use other (Interpreter.eval text) r).trans (eq_filter_true r.sessionIds)
  | listing other start =>
      exact (sessionIds_use other (fun i => (.ok (i.listing start), i)) r).trans
        (eq_filter_true r.sessionIds)
  | valueOf other name =>
      exact (sessionIds_use other (fun i => (i.valueOf name, i)) r).trans
        (eq_filter_true r.sessionIds)
  | finish other =>
      rw [show (r.perform (.finish other)).2.sessionIds = (r.sessions.erase other).keys from rfl,
        OrderedMap.keys_erase]
      simp [perform, Action.removes, Action.Answer.newIds, sessionIds, eq_comm]
  | close => simp [perform, close, Action.removes, Action.Answer.newIds, sessionIds,
      OrderedMap.keys, OrderedMap.empty]
  | evict busy now =>
      have dropped := r.sessions.keys_filter_not (r.isDue busy (now.getD r.clock))
      have listed : (r.perform (.evict busy now)).2.sessionIds =
          r.sessionIds.filter fun id => !(Action.evict busy now).removes id
            (r.perform (.evict busy now)).1 := by
        refine dropped.trans (List.filter_congr ?_)
        intro id _
        simp [Action.removes, perform, evict]
      exact listed.trans (List.append_nil _).symm
  | advance step => exact eq_filter_true r.sessionIds

theorem settings_use {α : Type} (id : Text) (act : Interpreter → Except Failure α × Interpreter)
    (r : Registry) : (r.use id act).2.policy = r.policy ∧ (r.use id act).2.ids = r.ids := by
  rw [rest_use]
  exact ⟨rfl, rfl⟩

/-- A registry keeps its policy and its source of ids. -/
theorem settings_perform (r : Registry) (action : Action) :
    (r.perform action).2.policy = r.policy ∧ (r.perform action).2.ids = r.ids := by
  cases action with
  | create =>
      rcases r.create_cases with ⟨limit, -, stays⟩ | ⟨-, n, -, -, -, sessions, -, adds⟩
      · rw [stays]
        exact ⟨rfl, rfl⟩
      · rw [adds]
        exact ⟨rfl, rfl⟩
  | eval other text => exact settings_use other (Interpreter.eval text) r
  | listing other start => exact settings_use other (fun i => (.ok (i.listing start), i)) r
  | valueOf other name => exact settings_use other (fun i => (i.valueOf name, i)) r
  | finish other | close | evict busy now | advance step => exact ⟨rfl, rfl⟩

theorem policy_perform (r : Registry) (action : Action) :
    (r.perform action).2.policy = r.policy :=
  (r.settings_perform action).1

theorem newIds_perform_of_full (r : Registry) (action : Action) (limit : Int)
    (full : r.IsFull limit) : (r.perform action).1.newIds = [] := by
  cases action with
  | create => rw [r.perform_create_of_full limit full]; rfl
  | eval other text | listing other start | valueOf other name | finish other | close
  | evict busy now | advance step => rfl

theorem length_newIds_le (answer : Action.Answer) : answer.newIds.length ≤ 1 := by
  unfold Action.Answer.newIds
  split <;> simp

theorem size_perform_le (r : Registry) (action : Action) (limit : Int)
    (limited : r.policy.maxSessions = some limit) (within : (r.size : Int) ≤ limit) :
    ((r.perform action).2.size : Int) ≤ limit := by
  have kept := List.length_filter_le
    (fun id => !action.removes id (r.perform action).1) r.sessionIds
  rw [size_eq_length] at within
  rw [size_eq_length, sessionIds_perform, List.length_append]
  by_cases full : r.IsFull limit
  · rw [r.newIds_perform_of_full action limit full, List.length_nil]
    omega
  · have below : ¬ limit ≤ (r.size : Int) := fun reached => full ⟨limited, reached⟩
    have created := length_newIds_le (r.perform action).1
    rw [size_eq_length] at below
    omega

/-! ## Calls -/

theorem missing?_serve (i : Interpreter) (admissible : Frame.Admissible i.frame)
    (call : Interpreter.Call) : (i.serve call).1.missing? = none := by
  cases call with
  | eval text =>
      have answers := (Interpreter.answers_eval text i admissible).1
      show (Action.Answer.value (i.eval text).1).missing? = none
      unfold Action.Answer.missing?
      split
      · rename_i id failed
        -- a text is never answered with a session that is not found
        rw [Action.Answer.value.inj failed] at answers
        obtain ⟨fault, same, kind⟩ := answers
        cases Failure.fault.inj same
        simp [Fault.report, Report.sessionNotFound] at kind
      · rename_i id failed
        simp at failed
      · rfl
  | listing start => rfl
  | valueOf name =>
      show (Action.Answer.value (i.valueOf name)).missing? = none
      unfold Interpreter.valueOf
      split <;> rfl

theorem perform_of_unlisted (r : Registry) (id : Text) (call : Interpreter.Call)
    (absent : id ∉ r.sessionIds) :
    (r.perform (call.on id)).1.missing? = some id ∧ (r.perform (call.on id)).2 = r := by
  have shut : ∀ session, r.sessions.get? id = some session → session.closed = true :=
    fun session listed => absurd ((r.sessions.mem_keys_iff id).mpr ⟨session, listed⟩) absent
  cases call with
  | eval text =>
      simp only [Interpreter.Call.on, perform, eval, use_of_shut id _ r shut]
      exact ⟨rfl, trivial⟩
  | listing start =>
      simp only [Interpreter.Call.on, perform, listing, use_of_shut id _ r shut]
      exact ⟨rfl, trivial⟩
  | valueOf name =>
      simp only [Interpreter.Call.on, perform, valueOf, use_of_shut id _ r shut]
      exact ⟨rfl, trivial⟩

theorem finish_of_unlisted (r : Registry) (id : Text) (absent : id ∉ r.sessionIds) :
    (r.perform (.finish id)).2 = r := by
  show { r with sessions := r.sessions.erase id } = r
  rw [r.sessions.erase_of_not_mem id absent]

theorem missing?_perform (r : Registry) (sound : r.Sound) (id : Text) (call : Interpreter.Call) :
    (r.perform (call.on id)).1.missing? = if id ∈ r.sessionIds then none else some id := by
  by_cases live : id ∈ r.sessionIds
  · obtain ⟨session, listed⟩ := (r.sessions.mem_keys_iff id).mp live
    have opened := (sound id session listed).1
    have admissible := r.admissible_of_sound sound id session listed
    rw [if_pos live, answer_perform r id session listed opened call]
    exact missing?_serve session.interpreter admissible call
  · rw [if_neg live]
    exact (r.perform_of_unlisted id call live).1

/-! ## A run -/

/-- Of the ids listed before a run those stay that it spares, and its survivors come after them. -/
theorem sessionIds_run (history : List Action) (r : Registry) :
    (r.run history).2.sessionIds =
      (r.sessionIds.filter fun id => isSpared id (history.zip (r.run history).1)) ++
        survivors (history.zip (r.run history).1) := by
  induction history generalizing r with
  | nil => exact eq_filter_true r.sessionIds
  | cons action rest ih =>
      show ((r.perform action).2.run rest).2.sessionIds = _
      rw [ih, sessionIds_perform, List.filter_append, List.filter_filter, List.append_assoc]
      simp [run, survivors, isSpared, Bool.and_comm]

/-- An id that is drawn again after its session was finished is listed by its second creation. -/
example :
    survivors [(.create, .created (.ok "s")), (.create, .created (.ok "t")), (.finish "s", .done),
      (.create, .created (.ok "s"))] = (["t", "s"] : List Text) := by
  decide

theorem policy_run (history : List Action) (r : Registry) :
    (r.run history).2.policy = r.policy := by
  induction history generalizing r with
  | nil => rfl
  | cons action rest ih => exact (ih (r.perform action).2).trans (r.policy_perform action)

theorem size_run_le (history : List Action) (r : Registry) (limit : Int)
    (limited : r.policy.maxSessions = some limit) (within : (r.size : Int) ≤ limit) :
    ((r.run history).2.size : Int) ≤ limit := by
  induction history generalizing r with
  | nil => exact within
  | cons action rest ih =>
      exact ih (r.perform action).2 ((r.policy_perform action).symm ▸ limited)
        (r.size_perform_le action limit limited within)

/-- A registry with some policy in which the sessions of the ids `live` are listed. -/
structure Orderly (policy : Policy) (live : List Text) (r : Registry) : Prop where
  listed : r.sessionIds = live
  distinct : live.Nodup
  found : ∀ id, r.has id = true ↔ id ∈ live
  counted : r.size = live.length
  allowed : ∀ limit, policy.maxSessions = some limit → 0 ≤ limit → (live.length : Int) ≤ limit
  refused : ∀ limit, (r.perform .create).1 = .created (.error (.fault (.sessionLimit limit))) ↔
    policy.maxSessions = some limit ∧ limit ≤ (live.length : Int)
  unspent : ∀ failure, (r.perform .create).1 = .created (.error failure) →
    (r.perform .create).2 = r
  created : (∀ limit, policy.maxSessions = some limit → (live.length : Int) < limit) →
    r.CreatesNext
  called : ∀ id (call : Interpreter.Call),
    (r.perform (call.on id)).1.missing? = if id ∈ live then none else some id
  missed : ∀ id (call : Interpreter.Call), id ∉ live → (r.perform (call.on id)).2 = r
  finished : ∀ id, id ∉ live → (r.perform (.finish id)).2 = r
  opened : ∀ id session, r.sessions.get? id = some session → session.closed = false

end Registry

/-- Whatever has been asked of a registry: it lists, once each and in the order of their creation,
the ids that were created and not removed since their creation, and no more than its policy allows.
It refuses a creation just when it is full, and then nothing is drawn or changed; otherwise the
first draw that is not in use gets an empty session, listed last.  A call is answered with a session
that is not found just when its id is not listed, and then changes nothing; nor does finishing a
session that is not listed. -/
theorem registry_is_orderly (policy : Policy) (ids : IdSource) (clock : Binary64)
    (history : List Action) :
    let run := (Registry.start policy ids clock).run history
    run.2.Orderly policy (survivors (history.zip run.1)) := by
  intro run
  have sound : run.2.Sound := Registry.sound_run _ history (Registry.sound_start policy ids clock)
  have samePolicy : run.2.policy = policy := Registry.policy_run history (.start policy ids clock)
  have listed : run.2.sessionIds = survivors (history.zip run.1) :=
    Registry.sessionIds_run history (.start policy ids clock)
  have counted : run.2.size = run.2.sessionIds.length := run.2.size_eq_length
  have full (limit : Int) : run.2.IsFull limit ↔
      policy.maxSessions = some limit ∧ limit ≤ (run.2.sessionIds.length : Int) := by
    rw [Registry.IsFull, samePolicy, counted]
  have room (below : ∀ limit, policy.maxSessions = some limit →
      (run.2.sessionIds.length : Int) < limit) (limit : Int) : ¬ run.2.IsFull limit := by
    rw [full]
    rintro ⟨limited, reached⟩
    exact Int.not_lt.mpr reached (below limit limited)
  rw [← listed]
  exact {
    listed := rfl
    distinct := run.2.sessions.nodup
    found := run.2.sessions.contains_iff_mem_keys
    counted := counted
    allowed := fun limit limited nonneg => counted ▸
      Registry.size_run_le history (.start policy ids clock) limit limited nonneg
    refused := fun limit => (run.2.create_eq_limit_iff limit).trans (full limit)
    unspent := run.2.perform_create_of_error
    created := fun below => run.2.createsNext_of_room (room below)
    called := run.2.missing?_perform sound
    missed := fun id call absent => (run.2.perform_of_unlisted id call absent).2
    finished := run.2.finish_of_unlisted
    opened := fun id session found => (sound id session found).1 }

end ParenCalc
