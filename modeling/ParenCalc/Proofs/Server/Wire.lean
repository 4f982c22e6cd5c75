import ParenCalc.Command.Launch
import ParenCalc.Proofs.Command.Settings
import ParenCalc.Proofs.Server.SendableReplies
/-!
# The wire is transparent

A request that is sent as a line is handled as the request itself: the server comes to the same state
and sends the line of the same reply, and reading this line gives the reply back.  That needs what a
line can carry: no surrogate pair that is split, in the request as in the ids and in the names that
the server has.  A server keeps to it as long as the texts that it evaluates do.
-/
set_option autoImplicit false

namespace ParenCalc

/-! ## Names -/

/-- A frame that extends another has bound the names of the other, and names that it was allowed to
redefine. -/
theorem Frame.mem_keys_of_extends (names : Symbol → Prop) (before after : Frame)
    (step : Frame.Extends names before after) (x : Symbol) (bound : x ∈ after.keys) :
    names x ∨ x ∈ before.keys := by
  by_cases own : names x
  · exact .inl own
  · obtain ⟨value, found⟩ := (after.mem_keys_iff x).mp bound
    exact .inr ((before.mem_keys_iff x).mpr ⟨value, step.same x own ▸ found⟩)

namespace Interpreter

/-- No pair is split in a name that is bound. -/
def Unsplit (i : Interpreter) : Prop := ∀ x ∈ i.frame.keys, x.name.Unsplit

theorem unsplit_of_extends (text : Text) (whole : text.Unsplit) (i after : Interpreter)
    (unsplit : i.Unsplit)
    (step : Frame.Extends (fun x => text.Defines x) i.frame after.frame) : after.Unsplit := by
  intro x bound
  rcases Frame.mem_keys_of_extends _ _ _ step x bound with defined | bound
  · exact Text.unsplit_of_infix _ _ (Text.infix_of_defines x text defined) whole
  · exact unsplit x bound

theorem unsplit_eval (text : Text) (whole : text.Unsplit) (i : Interpreter)
    (admissible : Frame.Admissible i.frame) (unsplit : i.Unsplit) : (i.eval text).2.Unsplit := by
  have outcome := i.turnsOut_eval text admissible
  generalize i.eval text = run at outcome
  cases outcome with
  | value n after result step => exact unsplit_of_extends text whole i after unsplit step
  | refused cause => exact unsplit
  | mishap failure after isMishap step => exact unsplit_of_extends text whole i after unsplit step

theorem listing_sublist (start : Option Text) (i : Interpreter) :
    (i.listing start).Sublist i.frame.entries := by
  cases start with
  | none => exact List.Sublist.refl _
  | some t => exact List.filter_sublist

end Interpreter

/-! ## Servers -/

/-- An action that evaluates no text in which a pair is split. -/
def Action.Unsplit : Action → Prop
  | .eval _ text => text.Unsplit
  | .create | .listing _ _ | .valueOf _ _ | .finish _ | .close | .evict _ _ | .advance _ => True

namespace IdSource

/-- No pair is split in an id that is drawn. -/
def Unsplit (ids : IdSource) : Prop := ∀ n, (ids.draw n).Unsplit

theorem unsplit_ofScript (script : List Text) (base : Nat) (each : ∀ id ∈ script, id.Unsplit) :
    (ofScript script base).Unsplit := by
  intro n
  show (script[n]?.getD (numbered _)).Unsplit
  cases found : script[n]? with
  | none => exact Text.unsplit_of_scalar _ (Text.scalar_of_printable _ (Text.printable_hex _ _))
  | some id => exact each id (List.mem_of_getElem? found)

end IdSource

namespace Registry

/-- A registry that holds nothing which cannot be sent. -/
structure Plain (r : Registry) : Prop where
  sound : r.Sound
  policy : r.policy.IsSendable
  ids : r.ids.Unsplit
  names : ∀ id session, r.sessions.get? id = some session → session.interpreter.Unsplit

theorem plain_start (policy : Policy) (ids : IdSource) (clock : Binary64)
    (sendable : policy.IsSendable) (unsplit : ids.Unsplit) : (start policy ids clock).Plain where
  sound := sound_start policy ids clock
  policy := sendable
  ids := unsplit
  names := by
    intro id session listed
    simp [start] at listed

theorem plain_perform (r : Registry) (action : Action) (unsplit : action.Unsplit) (plain : r.Plain) :
    (r.perform action).2.Plain where
  sound := r.sound_perform action plain.sound
  policy := (r.settings_perform action).1 ▸ plain.policy
  ids := (r.settings_perform action).2 ▸ plain.ids
  names := by
    intro id session listed
    rw [get?_perform] at listed
    split at listed
    · cases listed
    split at listed
    · rw [← Option.some.inj listed]
      exact List.forall_mem_nil _
    · -- a session that was there before, perhaps called by this action
      obtain ⟨before, was, rfl⟩ := Option.map_eq_some_iff.mp listed
      have opened := (plain.sound id before was).1
      have own := plain.names id before was
      cases called : action.callTo? id with
      | none => exact own
      | some call =>
          rw [Session.after, if_neg (by simp [opened])]
          cases call with
          | listing start | valueOf name => exact own
          | eval text =>
              have isEval := action.eq_on_of_callTo? id (.eval text) called
              have admissible := r.admissible_of_sound plain.sound id before was
              rw [isEval] at unsplit
              exact before.interpreter.unsplit_eval text unsplit admissible own

theorem unsplit_action (request : Request) (own : ∀ t ∈ request.texts, t.Unsplit) :
    request.action.Unsplit := by
  cases request with
  | eval id code => exact own code (by simp [Request.texts])
  | create | listing id start | valueOf id name | finish id => trivial

theorem plain_answerLine (r : Registry) (bytes : List UInt8) (plain : r.Plain) :
    (r.answerLine bytes).2.Plain := by
  have led := r.leadsTo_answerLine bytes
  generalize r.answerLine bytes = answered at led
  cases led with
  | overrun text overrun decoded parsed => exact plain
  | invalid cause none => exact plain
  | request request some =>
      rw [answer_action]
      have own := Request.unsplit_of_ofBytes? bytes request some
      exact r.plain_perform request.action (unsplit_action request own) plain

/-- A registry that a server may come to have: lines of whatever bytes are sent to it, and whatever
else may happen to a registry happens, but no text is evaluated in which a pair is split. -/
inductive ServedWhole (first : Registry) : Registry → Prop
  | start : ServedWhole first first
  | line (bytes : List UInt8) (r : Registry) (before : ServedWhole first r) :
      ServedWhole first (r.answerLine bytes).2
  | action (action : Action) (unsplit : action.Unsplit) (r : Registry)
      (before : ServedWhole first r) : ServedWhole first (r.perform action).2

theorem plain_of_servedWhole (first r : Registry) (plain : first.Plain)
    (served : ServedWhole first r) : r.Plain := by
  induction served with
  | start => exact plain
  | line bytes r before ih => exact r.plain_answerLine bytes ih
  | action action unsplit r before ih => exact r.plain_perform action unsplit ih

end Registry

/-! ## Answers -/

open Json (Sendable fullRoom)

namespace Interpreter

section Sendable

variable (i : Interpreter) (admissible : Frame.Admissible i.frame)

include admissible

theorem sendable_eval (code : Text) (whole : code.Unsplit)
    (strict : (Reply.ofOutcome .number (i.eval code).1).toJson.isStrict = true) :
    Sendable fullRoom (Reply.ofOutcome .number (i.eval code).1).toJson := by
  have outcome := i.turnsOut_eval code admissible
  have quoted (failure : Failure) (failed : (i.eval code).1 = .error failure) :
      ∀ t ∈ failure.texts, t.Unsplit := fun t member =>
    Text.unsplit_of_infix t code (infix_of_interpret formRoom code _ failure failed t member) whole
  generalize i.eval code = run at outcome quoted strict ⊢
  cases outcome with
  | value n after result step =>
      exact Reply.sendable_result 989 _ (.number _ n (n.isSendable_of_isAdmissible result))
  | refused cause =>
      have unsplit := (Fault.malformed cause).unsplit_report (quoted _ rfl)
      exact Reply.sendable_report 988 _ unsplit (List.forall_mem_nil _)
  | mishap failure after isMishap step =>
      exact Reply.sendable_mishap 988 failure isMishap (quoted failure rfl) strict

theorem sendable_listing (unsplit : i.Unsplit) (start : Option Text) :
    Sendable fullRoom (Reply.result (Json.ofBindings (i.listing start))).toJson := by
  have among := i.listing_sublist start
  have keys := among.map Prod.fst
  refine Reply.sendable_result 989 _ (Reply.sendable_ofBindings 988 _ ?_ ?_ ?_)
  · exact i.frame.nodup.sublist keys
  · exact fun x member => unsplit x (keys.subset member)
  · rintro ⟨x, value⟩ member
    exact admissible x value ((i.frame.get?_eq_some_iff x value).mpr (among.subset member))

theorem sendable_valueOf (name : Text) (whole : name.Unsplit) :
    Sendable fullRoom (Reply.ofOutcome .number (i.valueOf name)).toJson := by
  unfold valueOf
  split
  · rename_i value found
    obtain ⟨x, -, bound⟩ := Option.bind_eq_some_iff.mp found
    have sendable := value.isSendable_of_isAdmissible (admissible x value bound)
    exact Reply.sendable_result 989 _ (.number _ value sendable)
  · have unsplit := (Fault.undefined name).unsplit_report (List.forall_mem_singleton.mpr whole)
    exact Reply.sendable_report 988 _ unsplit (List.forall_mem_nil _)

end Sendable

end Interpreter

namespace Registry

theorem sendable_create (r : Registry) (plain : r.Plain) :
    Sendable fullRoom (r.answer .create).1.toJson := by
  show Sendable fullRoom (Reply.ofOutcome .string r.create.1).toJson
  rcases r.create_cases with ⟨limit, full, stays⟩ | ⟨-, n, -, -, -, sessions, -, adds⟩
  · have outcome : Action.Answer.created r.create.1 = _ := congrArg Prod.fst stays
    have unsplit := (Fault.sessionLimit limit).unsplit_report (List.forall_mem_nil _)
    rw [Action.Answer.created.inj outcome]
    exact Reply.sendable_report 988 _ unsplit
      (List.forall_mem_singleton.mpr (plain.policy limit full.1))
  · have outcome : Action.Answer.created r.create.1 = _ := congrArg Prod.fst adds
    rw [Action.Answer.created.inj outcome]
    exact Reply.sendable_result 989 _ (.string _ _ (plain.ids n))

/-- That a session is missing can be told; so a session is used with a reply that can be sent if its
interpreter makes one. -/
theorem sendable_use {α : Type} (r : Registry) (id : Text) (own : id.Unsplit) (encode : α → Json)
    (act : Interpreter → Except Failure α × Interpreter)
    (served : ∀ session, r.sessions.get? id = some session →
      (Reply.ofOutcome encode (act session.interpreter).1).toJson.isStrict = true →
        Sendable fullRoom (Reply.ofOutcome encode (act session.interpreter).1).toJson)
    (strict : (Reply.ofOutcome encode (r.use id act).1).toJson.isStrict = true) :
    Sendable fullRoom (Reply.ofOutcome encode (r.use id act).1).toJson := by
  rcases r.use_cases id act with gone | ⟨session, listed, opened, answered⟩
  · rw [gone]
    exact Reply.sendable_missing 988 id own
  · rw [answered] at strict ⊢
    exact served session listed strict

theorem sendable_answer (r : Registry) (plain : r.Plain) (request : Request)
    (own : ∀ t ∈ request.texts, t.Unsplit) (strict : (r.answer request).1.toJson.isStrict = true) :
    Sendable fullRoom (r.answer request).1.toJson := by
  have admissible := r.admissible_of_sound plain.sound
  cases request with
  | create => exact r.sendable_create plain
  | finish id => exact Reply.sendable_result 989 .null (.null _)
  | eval id code =>
      obtain ⟨first, rest⟩ := List.forall_mem_cons.mp own
      have whole := rest code List.mem_cons_self
      refine r.sendable_use id first Json.number (Interpreter.eval code) ?_ strict
      exact fun session listed =>
        session.interpreter.sendable_eval (admissible id session listed) code whole
  | listing id start =>
      refine r.sendable_use id (own id List.mem_cons_self) Json.ofBindings
        (fun i => (.ok (i.listing start), i)) ?_ strict
      exact fun session listed _ => session.interpreter.sendable_listing
        (admissible id session listed) (plain.names id session listed) start
  | valueOf id name =>
      obtain ⟨first, rest⟩ := List.forall_mem_cons.mp own
      have whole := rest name List.mem_cons_self
      refine r.sendable_use id first Json.number (fun i => (i.valueOf name, i)) ?_ strict
      exact fun session listed _ =>
        session.interpreter.sendable_valueOf (admissible id session listed) name whole

theorem sendable_answerJson (r : Registry) (plain : r.Plain) (v : Json) (unsplit : v.Unsplit)
    (strict : (r.answerJson v).1.toJson.isStrict = true) :
    Sendable fullRoom (r.answerJson v).1.toJson := by
  have comes := Request.comesUnsplit_ofJson v unsplit
  unfold answerJson at strict ⊢
  cases known : Request.ofJson v with
  | error cause =>
      rw [known] at comes
      exact Reply.sendable_invalid 989 cause comes
  | ok request =>
      rw [known] at comes strict
      exact r.sendable_answer plain request comes strict

/-! ## Lines -/

theorem answerLine_wire (r : Registry) (request : Json) (sendable : Sendable fullRoom request) :
    r.answerLine request.wire = (.ok (r.answerJson request).1.line, (r.answerJson request).2) := by
  have decoded := request.decode_wire (request.isStrict_of_sendable fullRoom sendable)
  have parsed := request.parse_wire sendable
  simp only [answerLine, answerBytes, decoded, parsed]
  rfl

theorem answerJson_eval (r : Registry) (members : List (Text × Json)) (id code : Text)
    (command : Json.member? "cmd" members = some (.string "eval"))
    (session : Json.member? "session" members = some (.string id))
    (text : Json.member? "code" members = some (.string code)) :
    r.answerJson (.object members) =
      (.ofOutcome .number (r.eval id code).1, (r.eval id code).2) := by
  have isRequest : Request.ofJson (.object members) = .ok (.eval id code) := by
    simp only [Request.ofJson, command]
    simp only [Request.ofCommand, Request.field, session, text]
    rfl
  rw [answerJson, isRequest]
  rfl

/-- The line that a request is sent as is handled as the request is: it leads to the same state and,
unless JSON cannot write the reply, to the line of the same reply.  The code that it asks to evaluate is
evaluated as it stands. -/
structure Carries (r : Registry) (request : Json) : Prop where
  state : (r.answerLine request.wire).2 = (r.answerJson request).2
  reply : (r.answerJson request).1.toJson.isStrict = true →
    (r.answerLine request.wire).1.map Utf8.encode = .ok (r.answerJson request).1.toJson.wire
  code : ∀ members id code, request = .object members →
    Json.member? "cmd" members = some (.string "eval") →
    Json.member? "session" members = some (.string id) →
    Json.member? "code" members = some (.string code) →
      r.answerLine request.wire =
        (.ok (Reply.ofOutcome .number (r.eval id code).1).line, (r.eval id code).2)

theorem carries_of_sendable (r : Registry) (request : Json) (sendable : Sendable fullRoom request) :
    r.Carries request := by
  have handled := r.answerLine_wire request sendable
  refine ⟨by rw [handled], ?_, ?_⟩
  · intro strict
    rw [handled, Reply.line, if_pos strict]
    rfl
  · rintro members id code rfl command session text
    rw [handled, r.answerJson_eval members id code command session text]

/-- The reply to a request, if JSON can write it, is read back from the line that it is sent as. -/
def ReadsBack (r : Registry) (request : Json) : Prop :=
  (r.answerJson request).1.toJson.isStrict = true →
    Json.ofWire? (r.answerJson request).1.toJson.wire = some (r.answerJson request).1.toJson

theorem readsBack_of_servedWhole (first r : Registry) (plain : first.Plain)
    (served : ServedWhole first r) (request : Json) (sendable : Sendable fullRoom request) :
    r.ReadsBack request := by
  intro strict
  have grown := plain_of_servedWhole first r plain served
  have unsplit := request.unsplit_of_sendable fullRoom sendable
  exact Json.ofWire?_wire _ (r.sendable_answerJson grown request unsplit strict)

end Registry

/-- A value is read back from the line that it is sent as if its strings split no surrogate pair, as
texts of scalar values do not, its integers keep to the limit of digits and its doubles are finite, and
it is not nested too deeply.  Whatever state a server is in, it handles the line of such a request as
the request itself.  Whatever it has been through, a reply that JSON can write is read back from its
line; for that the limit of sessions can be told, as every one can that the environment sets, and a
pair is split neither in the ids of sessions nor in a text that a session was given otherwise than by a
line. -/
theorem wire_is_transparent (request : Json) (sendable : Json.Sendable Json.fullRoom request) :
    Json.ofWire? request.wire = some request ∧ (∀ r : Registry, r.Carries request) ∧
      (∀ (policy : Policy) (ids : IdSource) (clock : Binary64) (r : Registry), policy.IsSendable →
        ids.Unsplit → Registry.ServedWhole (.start policy ids clock) r → r.ReadsBack request) ∧
      ∀ (env : Settings.Environment) (settings : Settings) (ids : IdSource) (clock : Binary64)
        (r : Registry), Settings.ofEnvironment env = .ok settings → ids.Unsplit →
          Registry.ServedWhole (Launch.registry settings ids clock) r → r.ReadsBack request := by
  refine ⟨request.ofWire?_wire sendable, fun r => r.carries_of_sendable request sendable, ?_, ?_⟩
  · intro policy ids clock r limit whole served
    have plain := Registry.plain_start policy ids clock limit whole
    exact Registry.readsBack_of_servedWhole _ r plain served request sendable
  · intro env settings ids clock r accepted whole served
    have limit := Settings.isSendable_of_ofEnvironment env settings accepted
    have plain := Registry.plain_start _ ids clock limit whole
    exact Registry.readsBack_of_servedWhole _ r plain served request sendable

/-- A name beyond the first plane is bound and listed; the request has a string with a quotation mark,
a backslash and a line feed in it, inside containers.  A server that the environment allows one session
sends what can be read back, too. -/
theorem listing_beyond_the_first_plane_is_carried :
    let ids := IdSource.ofScript ["s"] 0
    let opened := ((Registry.start ⟨none, none⟩ ids (.zero false)).perform .create).2
    let r := (opened.perform (.eval "s" "(define 𝒳 -0.5)")).2
    let request : Json := .object [("cmd", .string "vars"), ("session", .string "s"),
      ("note", .array [.string "\"\\\n𝒳", .null, .number (.int (-3))])]
    let env : Settings.Environment := fun name =>
      if name = "LISPCORE_MAX_SESSIONS" then some "1" else none
    Json.ofWire? request.wire = some request ∧ r.Carries request ∧
      Json.ofWire? (r.answerJson request).1.toJson.wire = some (r.answerJson request).1.toJson ∧
      ∃ settings, Settings.ofEnvironment env = .ok settings ∧ settings.maxSessions = some 1 ∧
        (Launch.registry settings ids (.zero false)).ReadsBack request := by
  intro ids opened r request env
  have sendable : Json.Sendable (988 + 2) request := by
    have string (room : Nat) (s : String) : Json.Sendable room (.string s) :=
      .string room _ (Text.unsplit_ofString s)
    have note : Json.Sendable 989 (.array [.string "\"\\\n𝒳", .null, .number (.int (-3))]) := by
      refine .array 988 _ (List.forall_mem_cons.mpr ⟨string _ _, List.forall_mem_cons.mpr
        ⟨.null _, List.forall_mem_singleton.mpr (.number _ _ ?_)⟩⟩)
      exact Number.isSendable_int (-3) (by decide)
    exact Json.sendable_object 989 _ ["cmd", "session", "note"] rfl (by decide) (by decide)
      (List.forall_mem_cons.mpr ⟨string _ _, List.forall_mem_cons.mpr
        ⟨string _ _, List.forall_mem_singleton.mpr note⟩⟩)
  have whole : ids.Unsplit := IdSource.unsplit_ofScript ["s"] 0
    (List.forall_mem_singleton.mpr (Text.unsplit_ofString _))
  have served : Registry.ServedWhole (.start ⟨none, none⟩ ids (.zero false)) r :=
    .action (.eval "s" "(define 𝒳 -0.5)") (Text.unsplit_ofString _) _ (.action .create trivial _ .start)
  have strict : (r.answerJson request).1.toJson.isStrict = true := by
    dsimp only [r, opened, ids, request]
    rw [Registry.create_start]
    decide +kernel
  have accepted : Settings.ofEnvironment env =
      .ok ⟨none, some 1, .ofInt 30, "127.0.0.1", 8765, "WARNING"⟩ := by decide +kernel
  obtain ⟨read, carried, replies, launched⟩ := wire_is_transparent request sendable
  have readBack := replies ⟨none, none⟩ ids (.zero false) r (fun limit none => by cases none) whole
    served
  exact ⟨read, carried r, readBack strict, _, accepted, rfl,
    launched env _ ids (.zero false) _ accepted whole .start⟩

end ParenCalc
