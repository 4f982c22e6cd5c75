import ParenCalc.Proofs.Eval.Outcomes
import ParenCalc.Proofs.Session.Roster
import ParenCalc.Server.Reply
/-!
# What a request does

A line is refused, or it is a request, and a request is one action on the registry.  Of all that a
request can do there are five cases: it is refused because the registry is full or because there is
no such session, it has a result, its text is refused, or it meets with a mishap.  Each of them fixes
the reply and what may differ afterwards.
-/
set_option autoImplicit false

namespace ParenCalc

/-! ## Lines -/

deriving instance DecidableEq for Request

/-- The request that a line of bytes is, if it is one. -/
def Request.ofBytes? (bytes : List UInt8) : Option Request :=
  ((Utf8.decode bytes).toOption.bind fun text => (Json.parse text).toOption).bind fun v =>
    (ofJson v).toOption

def Request.action : Request → Action
  | .create => .create
  | .eval id code => .eval id code
  | .listing id start => .listing id start
  | .valueOf id name => .valueOf id name
  | .finish id => .finish id

/-- The session that a request uses. -/
def Request.used? : Request → Option Text
  | .eval id _ | .listing id _ | .valueOf id _ => some id
  | .create | .finish _ => none

/-- Somewhere in the text that a request has evaluated a definition takes this name. -/
def Request.Defines (x : Symbol) : Request → Prop
  | .eval _ code => code.Defines x
  | _ => False

/-- A field of the object that a reply is. -/
def Reply.field? (key : Text) (reply : Reply) : Option Json :=
  match reply.toJson with
  | .object members => Json.member? key members
  | _ => none

namespace Registry

theorem answer_action (request : Request) (r : Registry) :
    (r.answer request).2 = (r.perform request.action).2 := by
  cases request <;> rfl

/-- What a line may lead to: a failure of reading, a refusal, or the answer to a request. -/
inductive LeadsTo (bytes : List UInt8) (r : Registry) : Except Json.Overrun Text × Registry → Prop
  | overrun (text : Text) (overrun : Json.Overrun) (decoded : Utf8.decode bytes = .ok text)
      (parsed : Json.parse text = .error (.overrun overrun)) : LeadsTo bytes r (.error overrun, r)
  | invalid (cause : InvalidRequest) (none : Request.ofBytes? bytes = none) :
      LeadsTo bytes r (.ok (Reply.invalid cause).line, r)
  | request (request : Request) (some : Request.ofBytes? bytes = some request) :
      LeadsTo bytes r (.ok (r.answer request).1.line, (r.answer request).2)

theorem leadsTo_answerLine (bytes : List UInt8) (r : Registry) :
    LeadsTo bytes r (r.answerLine bytes) := by
  unfold answerLine answerBytes
  cases decoded : Utf8.decode bytes with
  | error refusal =>
      exact .invalid (.undecodable refusal) (by simp [Request.ofBytes?, decoded, Except.toOption])
  | ok text =>
      dsimp only
      cases parsed : Json.parse text with
      | error failure =>
          have none : Request.ofBytes? bytes = none := by
            simp [Request.ofBytes?, decoded, parsed, Except.toOption]
          cases failure with
          | overrun overrun => exact .overrun text overrun decoded parsed
          | expected what position => exact .invalid (.unreadable what position text) none
      | ok v =>
          dsimp only [answerJson]
          have same : Request.ofBytes? bytes = (Request.ofJson v).toOption := by
            simp [Request.ofBytes?, decoded, parsed, Except.toOption]
          cases known : Request.ofJson v with
          | ok request => exact .request request (by rw [same, known]; rfl)
          | error cause => exact .invalid cause (by rw [same, known]; rfl)

theorem answerLine_of_request (bytes : List UInt8) (request : Request) (r : Registry)
    (read : Request.ofBytes? bytes = some request) :
    r.answerLine bytes = (.ok (r.answer request).1.line, (r.answer request).2) := by
  have led := leadsTo_answerLine bytes r
  generalize r.answerLine bytes = answered at led
  cases led with
  | overrun text overrun decoded parsed =>
      simp [Request.ofBytes?, decoded, parsed, Except.toOption] at read
  | invalid cause none => simp [none] at read
  | request other some =>
      rw [some] at read
      cases read
      rfl

/-! ## Servers -/

/-- A registry that a server may come to have: lines are sent to it, and whatever else may happen to
a registry happens. -/
inductive Served (policy : Policy) (ids : IdSource) (clock : Binary64) : Registry → Prop
  | start : Served policy ids clock (.start policy ids clock)
  | line (bytes : List UInt8) (r : Registry) (before : Served policy ids clock r) :
      Served policy ids clock (r.answerLine bytes).2
  | action (action : Action) (r : Registry) (before : Served policy ids clock r) :
      Served policy ids clock (r.perform action).2

theorem sound_answerLine (bytes : List UInt8) (r : Registry) (sound : r.Sound) :
    (r.answerLine bytes).2.Sound := by
  have led := leadsTo_answerLine bytes r
  generalize r.answerLine bytes = answered at led
  cases led with
  | overrun text overrun decoded parsed => exact sound
  | invalid cause none => exact sound
  | request request some =>
      rw [answer_action]
      exact r.sound_perform request.action sound

theorem sound_of_served (policy : Policy) (ids : IdSource) (clock : Binary64) (r : Registry)
    (served : Served policy ids clock r) : r.Sound := by
  induction served with
  | start => exact sound_start policy ids clock
  | line bytes r before ih => exact sound_answerLine bytes r ih
  | action action r before ih => exact sound_perform r action ih

/-! ## What may differ -/

/-- Two registries differ at most in the session of an id, which is in both and has become another
as `may` allows. -/
structure DiffersAt (id : Text) (may : Session → Session → Prop) (before after : Registry) :
    Prop where
  rest : after = { before with sessions := after.sessions }
  listed : after.sessionIds = before.sessionIds
  others : ∀ other, other ≠ id → after.sessions.get? other = before.sessions.get? other
  own : ∀ was, before.sessions.get? id = some was →
    ∃ became, after.sessions.get? id = some became ∧ may was became

end Registry

/-- A session that has become another by being used, its bindings being as before. -/
def Session.OnlyUsed (was became : Session) : Prop :=
  became = { was with lastUsed := became.lastUsed }

/-- A session that has become another by being used, and only these names may have another value. -/
structure Session.Redefined (names : Symbol → Prop) (was became : Session) : Prop where
  closed : became.closed = was.closed
  frame : Frame.Extends names was.interpreter.frame became.interpreter.frame

namespace Registry

theorem differsAt_use {α : Type} (id : Text) (act : Interpreter → Except Failure α × Interpreter)
    (may : Session → Session → Prop) (r : Registry) (session : Session)
    (listed : r.sessions.get? id = some session) (opened : session.closed = false)
    (allowed : may session
      { session with interpreter := (act session.interpreter).2, lastUsed := r.clock }) :
    DiffersAt id may r (r.use id act).2 := by
  refine ⟨?_, sessionIds_use id act r, ?_, ?_⟩
  · rw [use_of_open id act r session listed opened]
  · intro other different
    rw [get?_use]
    cases r.sessions.get? other with
    | none => rfl
    | some found => simp [different.symm]
  · intro was found
    rw [listed] at found
    cases found
    refine ⟨_, ?_, allowed⟩
    rw [get?_use, listed]
    simp [opened]

/-- Using a session: there is none of this id, or it is open and acts. -/
theorem use_cases {α : Type} (id : Text) (act : Interpreter → Except Failure α × Interpreter)
    (r : Registry) :
    r.use id act = (.error (.fault (.sessionNotFound id)), r) ∨
    ∃ session, r.sessions.get? id = some session ∧ session.closed = false ∧
      (r.use id act).1 = (act session.interpreter).1 := by
  by_cases live : ∃ session, r.sessions.get? id = some session ∧ session.closed = false
  · obtain ⟨session, listed, opened⟩ := live
    refine .inr ⟨session, listed, opened, ?_⟩
    rw [use_of_open id act r session listed opened]
  · refine .inl (use_of_shut id act r ?_)
    intro session listed
    simpa using fun opened => live ⟨session, listed, opened⟩

/-! ## Answers -/

/-- What a request may be answered with and what it then leaves. -/
inductive Responds (r : Registry) (request : Request) : Reply × Registry → Prop
  | full (limit : Int) (creates : request = .create) :
      Responds r request (.fault (Fault.sessionLimit limit).report, r)
  | missing (id : Text) : Responds r request (.fault (Fault.sessionNotFound id).report, r)
  | result (value : Json) (after : Registry)
      (number : ∀ id code, request = .eval id code →
        ∃ n : Number, value = .number n ∧ n.isAdmissible = true) :
      Responds r request (.result value, after)
  | refused (id code : Text) (cause : Malformed) (after : Registry)
      (evaluates : request = .eval id code) (differs : DiffersAt id Session.OnlyUsed r after) :
      Responds r request (.fault (Fault.malformed cause).report, after)
  | mishap (id : Text) (failure : Failure) (after : Registry) (isMishap : failure.IsMishap)
      (uses : request.used? = some id)
      (differs : DiffersAt id (Session.Redefined fun x => request.Defines x) r after) :
      Responds r request (.ofFailure failure, after)

theorem responds_create (r : Registry) : Responds r .create (r.answer .create) := by
  show Responds r .create (.ofOutcome .string r.create.1, r.create.2)
  rcases r.create_cases with ⟨limit, -, stays⟩ | ⟨-, n, -, -, -, sessions, -, adds⟩
  · have outcome : Action.Answer.created r.create.1 = _ := congrArg Prod.fst stays
    have same : r.create.2 = r := congrArg Prod.snd stays
    rw [Action.Answer.created.inj outcome, same]
    exact .full limit rfl
  · have outcome : Action.Answer.created r.create.1 = _ := congrArg Prod.fst adds
    rw [Action.Answer.created.inj outcome]
    exact .result _ _ (by simp)

theorem responds_eval (r : Registry) (sound : r.Sound) (id code : Text) :
    Responds r (.eval id code) (r.answer (.eval id code)) := by
  show Responds r _ (.ofOutcome .number (r.use id (Interpreter.eval code)).1,
    (r.use id (Interpreter.eval code)).2)
  rcases r.use_cases id (Interpreter.eval code) with gone | ⟨session, listed, opened, answered⟩
  · rw [gone]
    exact .missing id
  · have admissible := r.admissible_of_sound sound id session listed
    have outcome := session.interpreter.turnsOut_eval code admissible
    have differs (may : Session → Session → Prop) :=
      r.differsAt_use id (Interpreter.eval code) may session listed opened
    rw [answered]
    generalize (r.use id (Interpreter.eval code)).2 = after at differs
    generalize session.interpreter.eval code = run at outcome differs
    cases outcome with
    | value n left admissible step =>
        refine .result (.number n) after ?_
        intro _ _ _
        exact ⟨n, rfl, admissible⟩
    | refused cause => exact .refused id code cause after rfl (differs _ rfl)
    | mishap failure left isMishap step =>
        exact .mishap id failure after isMishap rfl (differs _ ⟨rfl, step⟩)

theorem responds_listing (r : Registry) (id : Text) (start : Option Text) :
    Responds r (.listing id start) (r.answer (.listing id start)) := by
  show Responds r _ (.ofOutcome .ofBindings (r.listing id start).1, (r.listing id start).2)
  unfold listing
  rcases r.use_cases id (fun i => (Except.ok (i.listing start), i)) with
    gone | ⟨session, listed, opened, answered⟩
  · rw [gone]
    exact .missing id
  · rw [answered]
    exact .result _ _ (by simp)

theorem responds_valueOf (r : Registry) (id name : Text) :
    Responds r (.valueOf id name) (r.answer (.valueOf id name)) := by
  show Responds r _ (.ofOutcome .number (r.valueOf id name).1, (r.valueOf id name).2)
  unfold valueOf
  rcases r.use_cases id (fun i => (i.valueOf name, i)) with
    gone | ⟨session, listed, opened, answered⟩
  · rw [gone]
    exact .missing id
  · have differs := r.differsAt_use id (fun i => (i.valueOf name, i))
      (Session.Redefined fun x => (Request.valueOf id name).Defines x) session listed opened
      ⟨rfl, Frame.extends_refl _ _⟩
    rw [answered]
    unfold Interpreter.valueOf
    split
    · exact .result _ _ (by simp)
    · exact .mishap id _ _ (.undefined name) rfl differs

theorem responds_answer (r : Registry) (sound : r.Sound) (request : Request) :
    Responds r request (r.answer request) := by
  cases request with
  | create => exact r.responds_create
  | eval id code => exact r.responds_eval sound id code
  | listing id start => exact r.responds_listing id start
  | valueOf id name => exact r.responds_valueOf id name
  | finish id => exact .result .null _ (by simp)

end Registry

end ParenCalc
