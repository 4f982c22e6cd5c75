import ParenCalc.Proofs.Eval.Safety
import ParenCalc.Proofs.Session.Steps
/-!
# Sessions are safe

Whatever actions a registry has seen, its sessions are open and hold interpreters that texts have
led to from an empty frame.  What is true of every reachable interpreter is therefore true of every
session.
-/
set_option autoImplicit false

namespace ParenCalc

namespace Registry

/-- Every session is open and has seen nothing but texts. -/
def Sound (r : Registry) : Prop :=
  ∀ id session, r.sessions.get? id = some session →
    session.closed = false ∧ session.interpreter.Reachable .empty

theorem sound_start (policy : Policy) (ids : IdSource) (clock : Binary64) :
    (start policy ids clock).Sound := by
  intro id session listed
  simp [start] at listed

theorem reachable_serve (i : Interpreter) (call : Interpreter.Call)
    (reachable : i.Reachable .empty) : (i.serve call).2.Reachable .empty := by
  cases call with
  | eval text => exact .eval text i reachable
  | listing start => exact reachable
  | valueOf name => exact reachable

theorem sound_perform (r : Registry) (action : Action) (sound : r.Sound) :
    (r.perform action).2.Sound := by
  intro id session listed
  rw [get?_perform] at listed
  split at listed
  · simp at listed
  · split at listed
    · rw [← Option.some.inj listed]
      exact ⟨rfl, .start⟩
    · -- a session that was there before, perhaps called by this action
      obtain ⟨before, was, rfl⟩ := Option.map_eq_some_iff.mp listed
      obtain ⟨opened, reachable⟩ := sound id before was
      cases action.callTo? id with
      | none => exact ⟨opened, reachable⟩
      | some call =>
          rw [Session.after, if_neg (by simp [opened])]
          exact ⟨opened, reachable_serve before.interpreter call reachable⟩

theorem sound_run (r : Registry) (history : List Action) (sound : r.Sound) :
    (r.run history).2.Sound := by
  induction history generalizing r with
  | nil => exact sound
  | cons action rest ih => exact ih (r.perform action).2 (sound_perform r action sound)

theorem admissible_of_sound (r : Registry) (sound : r.Sound) (id : Text) (session : Session)
    (listed : r.sessions.get? id = some session) : Frame.Admissible session.interpreter.frame :=
  have reachable := (sound id session listed).2
  (Interpreter.grows_of_reachable _ _ Frame.admissible_empty reachable).admissible

theorem answers_eval (r : Registry) (sound : r.Sound) (id text : Text) (live : id ∈ r.sessionIds) :
    Answers (fun n => n.isAdmissible = true) (r.eval id text).1 := by
  obtain ⟨session, listed⟩ := (r.sessions.mem_keys_iff id).mp live
  have opened := (sound id session listed).1
  have admissible := r.admissible_of_sound sound id session listed
  unfold eval
  rw [use_of_open id _ r session listed opened]
  exact (Interpreter.answers_eval text session.interpreter admissible).1

theorem eval_of_not_listed (r : Registry) (id text : Text) (gone : id ∉ r.sessionIds) :
    r.eval id text = (.error (.fault (.sessionNotFound id)), r) := by
  apply use_of_shut
  intro session listed
  exact absurd ((r.sessions.mem_keys_iff id).mpr ⟨session, listed⟩) gone

end Registry

/-- Every text is answered, wherever it is evaluated.  In a scope of admissible values, whatever room
is left, in an interpreter that any texts have led to from a frame of admissible values, and in a
session of a registry that any actions have led to, it comes to admissible values or to a fault that
is malformed, undefined or arithmetic; and what it leaves bound is admissible, under names that were
bound before or that a definition may take. -/
theorem every_text_is_answered (text : Text) :
    (∀ (room : Nat) (s : Scope), s.Admissible →
      (Evaluates (fun n => n.isAdmissible = true) s (interpret room text s) ∧
        (interpret room text s).2.Admissible) ∧
      Evaluates (fun values => ∀ n ∈ values, n.isAdmissible = true) s
        (interpretAll room text s)) ∧
    (∀ (first : Frame) (i : Interpreter), Frame.Admissible first → i.Reachable first →
      first.Grows i.frame ∧
      (Answers (fun n => n.isAdmissible = true) (i.eval text).1 ∧
        i.frame.Grows (i.eval text).2.frame) ∧
      (Answers (fun values => ∀ n ∈ values, n.isAdmissible = true) (i.evalAll text).1 ∧
        i.frame.Grows (i.evalAll text).2.frame)) ∧
    (∀ (policy : Policy) (ids : IdSource) (clock : Binary64) (history : List Action) (id : Text),
      let r := ((Registry.start policy ids clock).run history).2
      (id ∈ r.sessionIds → Answers (fun n => n.isAdmissible = true) (r.eval id text).1) ∧
      (id ∉ r.sessionIds → r.eval id text = (.error (.fault (.sessionNotFound id)), r)) ∧
      ∀ other session, (r.eval id text).2.sessions.get? other = some session →
        Frame.Grows .empty session.interpreter.frame) := by
  refine ⟨?_, ?_, ?_⟩
  · intro room s admissible
    have run := evaluates_interpret room text s admissible
    exact ⟨⟨run, run.admissible admissible⟩, evaluates_interpretAll room text s admissible⟩
  · intro first i admissible reachable
    have grown := Interpreter.grows_of_reachable first i admissible reachable
    exact ⟨grown, Interpreter.answers_eval text i grown.admissible,
      Interpreter.answers_evalAll text i grown.admissible⟩
  · intro policy ids clock history id r
    have sound : r.Sound := Registry.sound_run _ history (Registry.sound_start policy ids clock)
    refine ⟨r.answers_eval sound id text, r.eval_of_not_listed id text, ?_⟩
    intro other session listed
    have after : (r.perform (.eval id text)).2.Sound := r.sound_perform (.eval id text) sound
    obtain ⟨-, reachable⟩ := after other session listed
    exact Interpreter.grows_of_reachable _ _ Frame.admissible_empty reachable

/-- A failure after a definition: the definition is kept. -/
theorem undefined_operand_is_answered :
    let run := Interpreter.fresh.eval "(+ (define x 40) y)"
    run.1.toOption = none ∧ Frame.shown run.2.frame = "\x7bx: 40\x7d" ∧
      Answers (fun n => n.isAdmissible = true) run.1 ∧ Frame.Grows .empty run.2.frame := by
  intro run
  have reachable : Interpreter.fresh.Reachable .empty := .start
  have answered := (every_text_is_answered "(+ (define x 40) y)").2.1 .empty .fresh
    Frame.admissible_empty reachable
  exact ⟨by decide +kernel, by decide +kernel, answered.2.1⟩

end ParenCalc
