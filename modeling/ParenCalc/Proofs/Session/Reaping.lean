import Mathlib.Data.List.Nodup
import ParenCalc.Proofs.Number.Order
import ParenCalc.Proofs.Session.Steps
import ParenCalc.Session.Action
import ParenCalc.Session.Reaper
/-!
# The reaper makes up for what it missed

As time passes a session that is due stays due.  Hence an eviction may be left out: the next one
removes what it would have removed.  However many of its evictions fail, a reaper that gets one done
in the end has evicted what a single eviction at the end does, and nothing twice.
-/
set_option autoImplicit false

namespace ParenCalc

namespace Registry

/-! ## Time passes -/

/-- What a clock shows after some steps of the same length. -/
def clockAfter (interval : Binary64) : Nat → Binary64 → Binary64
  | 0, clock => clock
  | count + 1, clock => clockAfter interval count (clock.add interval)

/-- A registry after some steps of time in which nothing else has happened. -/
def waited (interval : Binary64) (count : Nat) (r : Registry) : Registry :=
  { r with clock := clockAfter interval count r.clock }

theorem run_advance (interval : Binary64) (count : Nat) (r : Registry) :
    (r.run (List.replicate count (.advance interval))).2 = r.waited interval count := by
  induction count generalizing r with
  | zero => rfl
  | succ count ih =>
      rw [List.replicate_succ]
      exact ih (r.advance interval)

section Later

variable {interval : Binary64}
variable (nonneg : Comparison.greaterEq.compare (.float interval) (.int 0) = true)
include nonneg

/-- A session that is due is so a while later. -/
theorem isDue_later (r : Registry) (busy : List Text) (now : Binary64) (id : Text)
    (session : Session) (due : r.isDue busy now id session = true) :
    r.isDue busy (now.add interval) id session = true := by
  obtain ⟨number, atLeastZero⟩ := (Binary64.nonneg_iff_extent interval).mp nonneg
  unfold isDue at due ⊢
  cases limit : r.policy.idleTimeout with
  | none => simp [limit] at due
  | some timeout =>
      simp only [limit, Bool.and_eq_true] at due ⊢
      obtain ⟨⟨idle, opened⟩, unbusy⟩ := due
      exact ⟨⟨Binary64.lt_add_of_later timeout now interval _ number atLeastZero idle, opened⟩,
        unbusy⟩

theorem isDue_clockAfter (r : Registry) (busy : List Text) (count : Nat) (now : Binary64)
    (id : Text) (session : Session) (due : r.isDue busy now id session = true) :
    r.isDue busy (clockAfter interval count now) id session = true := by
  induction count generalizing now with
  | zero => exact due
  | succ count ih => exact ih _ (isDue_later nonneg r busy now id session due)

end Later

/-! ## One eviction after another -/

/-- An eviction whose sessions are all due later too is absorbed by a later one: both together
remove what the later one does alone, and nothing twice. -/
theorem evict_evict (r : Registry) (busy : List Text) (now later : Binary64)
    (still : ∀ id session, r.isDue busy now id session = true →
      r.isDue busy later id session = true) :
    ((r.evict busy now).2.evict busy later).2 = (r.evict busy later).2 ∧
      ((r.evict busy now).1 ++ ((r.evict busy now).2.evict busy later).1).Perm
        (r.evict busy later).1 := by
  let early (entry : Text × Session) : Bool := r.isDue busy now entry.1 entry.2
  let late (entry : Text × Session) : Bool := r.isDue busy later entry.1 entry.2
  have kept (entry : Text × Session) (due : early entry = true) : late entry = true :=
    still entry.1 entry.2 due
  constructor
  · have left : (r.sessions.entries.filter fun entry => !early entry).filter (fun entry =>
        !late entry) = r.sessions.entries.filter fun entry => !late entry := by
      rw [List.filter_filter]
      apply List.filter_congr
      intro entry _
      cases due : early entry with
      | false => simp
      | true => simp [kept entry due]
    have same : ((r.evict busy now).2.evict busy later).2.sessions =
        (r.evict busy later).2.sessions := OrderedMap.eq_of_entries _ _ left
    show { r with sessions := ((r.evict busy now).2.evict busy later).2.sessions } = _
    rw [same]
    rfl
  -- what is due later is split into what was due before and the rest
  · have first : r.sessions.entries.filter early =
        (r.sessions.entries.filter late).filter early := by
      rw [List.filter_filter]
      apply List.filter_congr
      intro entry _
      cases due : early entry with
      | false => simp
      | true => simp [kept entry due]
    have second : (r.sessions.entries.filter fun entry => !early entry).filter late =
        (r.sessions.entries.filter late).filter fun entry => !early entry := by
      rw [List.filter_filter, List.filter_filter]
      simp only [Bool.and_comm]
    show ((r.sessions.entries.filter early).map Prod.fst ++
      ((r.sessions.entries.filter fun entry => !early entry).filter late).map Prod.fst).Perm
        ((r.sessions.entries.filter late).map Prod.fst)
    rw [first, second, ← List.map_append]
    exact (List.filter_append_perm early _).map Prod.fst

/-- No id is evicted twice at once. -/
theorem nodup_evict (r : Registry) (busy : List Text) (now : Binary64) :
    (r.evict busy now).1.Nodup :=
  (r.sessions.filter (r.isDue busy now)).nodup

end Registry

namespace Reaper

/-- The ticks of a reaper come to one eviction at the last of them, unless they all fail. -/
theorem ticks_come_to_one_eviction (interval : Binary64)
    (nonneg : Comparison.greaterEq.compare (.float interval) (.int 0) = true)
    (count failing : Nat) (r : Registry) :
    let late := r.waited interval count
    let once := late.evict [] late.clock
    (failing < count → (ticks interval count failing r).2 = once.2 ∧
      (ticks interval count failing r).1.Perm once.1) ∧
    (count ≤ failing → ticks interval count failing r = ([], late)) := by
  induction count generalizing failing r with
  | zero => exact ⟨fun short => absurd short (Nat.not_lt_zero failing), fun _ => rfl⟩
  | succ count ih =>
      intro late once
      cases failing with
      | succ failing =>
          obtain ⟨succeeds, fails⟩ := ih failing (r.advance interval)
          exact ⟨fun short => succeeds (Nat.lt_of_succ_lt_succ short),
            fun long => fails (Nat.le_of_succ_le_succ long)⟩
      | zero =>
          -- what the first tick removes the last one would remove too
          let now := r.clock.add interval
          let first := late.evict [] now
          have both := late.evict_evict [] now late.clock fun id session =>
            Registry.isDue_clockAfter nonneg late [] count now id session
          obtain ⟨succeeds, fails⟩ := ih 0 ((r.advance interval).evict [] now).2
          refine ⟨fun _ => ?_, fun long => absurd long (Nat.not_succ_le_zero count)⟩
          show (ticks interval count 0 ((r.advance interval).evict [] now).2).2 = once.2 ∧
            (first.1 ++
              (ticks interval count 0 ((r.advance interval).evict [] now).2).1).Perm once.1
          cases count with
          | zero =>
              rw [fails (Nat.le_refl 0), List.append_nil]
              exact ⟨rfl, List.Perm.refl _⟩
          | succ count =>
              obtain ⟨state, ids⟩ := succeeds (Nat.succ_pos count)
              exact ⟨state.trans both.1, (ids.append_left first.1).trans both.2⟩

end Reaper

/-- Over any number of ticks in which nothing else happens, with any number of evictions that fail
before the others succeed: a reaper leaves what a single eviction at the last tick leaves, and the
ids it has evicted are, each once, those that this eviction removes.  When all its evictions fail it
leaves everything as it was but the time.  It is not started twice. -/
theorem reaping_comes_to_one_eviction (r : Registry) (interval : Binary64)
    (nonneg : Comparison.greaterEq.compare (.float interval) (.int 0) = true)
    (count failing : Nat) :
    let reaper := (Reaper.ofInterval interval).start
    let reaped := reaper.run count failing r
    let late := (r.run (List.replicate count (.advance interval))).2
    let once := late.evict [] late.clock
    (failing < count → reaped.2 = once.2 ∧ reaped.1.Perm once.1 ∧ reaped.1.Nodup) ∧
    (count ≤ failing → reaped = ([], late)) ∧
    late = { r with clock := late.clock } ∧
    reaper.running = true ∧ ∀ p : Reaper, p.running = true → p.start = p := by
  intro reaper reaped late once
  have waits : late = r.waited interval count := r.run_advance interval count
  obtain ⟨succeeds, fails⟩ := Reaper.ticks_come_to_one_eviction interval nonneg count failing r
  rw [← waits] at succeeds fails
  refine ⟨?_, fails, by rw [waits]; rfl, rfl, ?_⟩
  · intro short
    obtain ⟨state, ids⟩ := succeeds short
    exact ⟨state, ids, ids.nodup_iff.mpr (late.nodup_evict [] late.clock)⟩
  · intro p running
    unfold Reaper.start
    rw [if_pos running]

/-- The first of three evictions fails.  The second removes the older session, which was due at the
first one already, and the third the younger one. -/
theorem reaper_makes_up_for_failed_tick :
    let opening : List Action := [.create, .advance (.ofInt 7), .create]
    let r := ((Registry.start ⟨some (.ofInt 10), none⟩ (.ofScript ["a", "b"] 0)
      (.zero false)).run opening).2
    let reaped := (Reaper.ofInterval (.ofInt 5)).start.run 3 1 r
    r.sessionIds = ["a", "b"] ∧ reaped.1.Perm ["a", "b"] ∧ reaped.1.Nodup ∧
      reaped.2.sessionIds = [] := by
  intro opening r reaped
  let two : Registry := ⟨⟨some (.ofInt 10), none⟩, .ofScript ["a", "b"] 0, 2, .ofInt 7,
    .ofList [("a", ⟨.fresh, .zero false, false⟩), ("b", ⟨.fresh, .ofInt 7, false⟩)]⟩
  have opened : r = two := by
    let empty := Registry.start ⟨some (.ofInt 10), none⟩ (.ofScript ["a", "b"] 0) (.zero false)
    have first := empty.create_of_unused rfl (by decide +kernel)
    have second := (empty.create.2.advance (.ofInt 7)).create_of_unused (by rw [first]; rfl)
      (by rw [first]; decide +kernel)
    have clock : (Binary64.zero false).add (.ofInt 7) = .ofInt 7 := by decide +kernel
    show (empty.create.2.advance (.ofInt 7)).create.2 = two
    rw [second, first]
    simp only [Registry.advance, empty, Registry.start, clock]
    rfl
  have late := two.run_advance (.ofInt 5) 3
  obtain ⟨state, ids, distinct⟩ := (reaping_comes_to_one_eviction two (.ofInt 5) (by decide +kernel)
    3 1).1 (by decide)
  rw [late] at state ids
  have evicted : ((two.waited (.ofInt 5) 3).evict [] (two.waited (.ofInt 5) 3).clock).1 =
      ["a", "b"] := by decide +kernel
  have left : ((two.waited (.ofInt 5) 3).evict [] (two.waited (.ofInt 5) 3).clock).2.sessionIds =
      [] := by decide +kernel
  rw [evicted] at ids
  rw [← state] at left
  have reapedTwo : reaped = (Reaper.ofInterval (.ofInt 5)).start.run 3 1 two :=
    congrArg ((Reaper.ofInterval (.ofInt 5)).start.run 3 1) opened
  rw [opened, reapedTwo]
  exact ⟨by decide +kernel, ids, distinct, left⟩

end ParenCalc
