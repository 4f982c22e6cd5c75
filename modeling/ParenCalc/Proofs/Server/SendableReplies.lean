import Mathlib.Data.List.Nodup
import ParenCalc.Proofs.Eval.Provenance
import ParenCalc.Proofs.Json.Sending
import ParenCalc.Proofs.Server.Requests
import ParenCalc.Proofs.Server.Wording
/-!
# Replies that can be sent

As long as no surrogate pair is split in the ids of sessions and in the texts that are evaluated, none
is split in a name that a session binds, and none in a reply.  Lines of bytes cannot split one.  So a
reply is read back from the line that it is sent as, provided that its numbers have a text.
-/
set_option autoImplicit false

namespace ParenCalc

/-! ## Requests -/

theorem Json.mem_of_member? (key : Text) (members : List (Text × Json)) (v : Json)
    (found : member? key members = some v) : (key, v) ∈ members := by
  obtain ⟨⟨other, w⟩, first, rfl⟩ := Option.map_eq_some_iff.mp found
  have same : other = key := by simpa using List.find?_some first
  exact same ▸ List.mem_of_find?_eq_some first

theorem Json.unsplit_of_member? (key : Text) (members : List (Text × Json)) (v : Json)
    (unsplit : (Json.object members).Unsplit) (found : member? key members = some v) : v.Unsplit := by
  cases unsplit with
  | atom _ isAtom => cases isAtom
  | object _ keys each => exact each (key, v) (mem_of_member? key members v found)

theorem Json.unsplit_text (t : Text) (unsplit : (Json.string t).Unsplit) : t.Unsplit := by
  cases unsplit with
  | atom _ isAtom => cases isAtom
  | string _ own => exact own

theorem Json.unsplit_shown (v : Json) (unsplit : v.Unsplit) : v.shown.Unsplit := by
  cases v with
  | string t => exact unsplit_text t unsplit
  | null | bool b | number n | array items | object members =>
      exact Text.unsplit_of_scalar _ (scalar_quoted _)

namespace Request

/-- The texts that a request is made of. -/
def texts : Request → List Text
  | .create => []
  | .eval id code => [id, code]
  | .listing id start => id :: start.toList
  | .valueOf id name => [id, name]
  | .finish id => [id]

/-- What the fields that go with a command come to: a request made of them, or a refusal. -/
inductive Comes (command : Text) (members : List (Text × Json)) :
    Except InvalidRequest Request → Prop
  | request (request : Request)
      (given : ∀ t ∈ request.texts, ∃ name, Json.member? name members = some (.string t)) :
      Comes command members (.ok request)
  | needed (name : String) : Comes command members (.error (.fieldNeeded name))
  | notText (name : String) : Comes command members (.error (.fieldNotText name))
  | unknown : Comes command members (.error (.unknownCommand (.string command)))

section Fields

variable (command : Text) (members : List (Text × Json))

theorem comes_of_field (name : String) (rest : Text → Except InvalidRequest Request)
    (later : ∀ t, Json.member? name members = some (.string t) → Comes command members (rest t)) :
    Comes command members (field name members >>= rest) := by
  unfold field
  split
  · rename_i t found
    exact later t found
  · exact .needed name

theorem comes_of_optionalField (name : String) (rest : Option Text → Except InvalidRequest Request)
    (later : ∀ start : Option Text,
      (∀ t ∈ start.toList, Json.member? name members = some (.string t)) →
        Comes command members (rest start)) :
    Comes command members (optionalField name members >>= rest) := by
  unfold optionalField
  split
  · exact later none (List.forall_mem_nil _)
  · exact later none (List.forall_mem_nil _)
  · rename_i t found
    exact later (some t) (List.forall_mem_singleton.mpr found)
  · exact .notText name

theorem comes_ofCommand : Comes command members (ofCommand command members) := by
  unfold ofCommand
  split
  · exact .request .create (List.forall_mem_nil _)
  split
  · refine comes_of_field command members "session" _ fun id first =>
      comes_of_field command members "code" _ fun code second => .request (.eval id code) ?_
    exact List.forall_mem_cons.mpr ⟨⟨_, first⟩, List.forall_mem_singleton.mpr ⟨_, second⟩⟩
  split
  · refine comes_of_field command members "session" _ fun id first =>
      comes_of_optionalField command members "prefix" _ fun start second =>
        .request (.listing id start) ?_
    exact List.forall_mem_cons.mpr ⟨⟨_, first⟩, fun t inStart => ⟨_, second t inStart⟩⟩
  split
  · refine comes_of_field command members "session" _ fun id first =>
      comes_of_field command members "name" _ fun name second => .request (.valueOf id name) ?_
    exact List.forall_mem_cons.mpr ⟨⟨_, first⟩, List.forall_mem_singleton.mpr ⟨_, second⟩⟩
  split
  · refine comes_of_field command members "session" _ fun id first => .request (.finish id) ?_
    exact List.forall_mem_singleton.mpr ⟨_, first⟩
  · exact .unknown

end Fields

/-- No pair is split in a request, or in what is said of a value that is none. -/
def ComesUnsplit : Except InvalidRequest Request → Prop
  | .ok request => ∀ t ∈ request.texts, t.Unsplit
  | .error cause => cause.message.Unsplit

theorem comesUnsplit_ofJson (v : Json) (unsplit : v.Unsplit) : ComesUnsplit (ofJson v) := by
  have unknown (w : Json) (own : w.Unsplit) : ComesUnsplit (.error (.unknownCommand w)) :=
    Text.unsplit_naming _ _ (w.unsplit_shown own)
  unfold ofJson
  split
  · rename_i members
    split
    · rename_i command found
      have named := Json.unsplit_of_member? _ members _ unsplit found
      have comes := comes_ofCommand command members
      generalize ofCommand command members = outcome at comes
      cases comes with
      | request request given =>
          intro t member
          obtain ⟨name, inMembers⟩ := given t member
          exact Json.unsplit_text t (Json.unsplit_of_member? name members _ unsplit inMembers)
      | needed name | notText name => exact Text.unsplit_naming _ _ (Text.unsplit_ofString name)
      | unknown => exact unknown _ named
    · rename_i other found
      exact unknown _ (Json.unsplit_of_member? _ members _ unsplit found)
    · exact unknown .null (.atom _ rfl)
  · exact Text.unsplit_ofString _

/-- No line of bytes is a request in which a pair is split. -/
theorem unsplit_of_ofBytes? (bytes : List UInt8) (request : Request)
    (read : ofBytes? bytes = some request) : ∀ t ∈ request.texts, t.Unsplit := by
  obtain ⟨v, isValue, isRequest⟩ := Option.bind_eq_some_iff.mp read
  have comes := comesUnsplit_ofJson v (Json.unsplit_of_ofWire? bytes v isValue)
  cases known : ofJson v with
  | error cause => simp [known, Except.toOption] at isRequest
  | ok other =>
      rw [known] at comes isRequest
      cases isRequest
      exact comes

end Request

/-! ## Replies -/

theorem Number.isSendable_of_isRunning (n : Number) (running : n.IsRunning)
    (strict : (Json.number n).isStrict = true) : n.IsSendable := by
  cases n with
  | int i => exact isSendable_of_isAdmissible (.int i) running
  | float x => exact strict

def Detail.numbers : Detail → List Number
  | .operation _ operands => operands
  | .limit n => [.int n]
  | .none | .text _ | .name _ | .session _ => []

theorem ArithmeticFault.isRunning_of_grounded (cause : ArithmeticFault) (grounded : cause.Grounded) :
    ∀ n ∈ cause.report.detail.numbers, n.IsRunning := by
  cases cause with
  | divisionByZero a b =>
      have divisor := b.isRunning_of_isAdmissible grounded.2
      exact List.forall_mem_cons.mpr ⟨grounded.1, List.forall_mem_singleton.mpr divisor⟩
  | numericOverflow op operands | integerOverflow op operands =>
      exact fun n member => n.isRunning_of_isAdmissible (grounded n member)

theorem Kind.unsplit_name (kind : Kind) : kind.name.Unsplit := by
  cases kind <;> exact Text.unsplit_ofString _

theorem Kind.unsplit_category (kind : Kind) : kind.category.Unsplit := by
  cases kind <;> exact Text.unsplit_ofString _

namespace Reply

open Json (Sendable sendable_object)

theorem sendable_result (room : Nat) (v : Json) (sendable : Sendable room v) :
    Sendable (room + 1) (result v).toJson :=
  sendable_object room _ ["ok", "result"] rfl (by decide) (by decide)
    (List.forall_mem_cons.mpr ⟨.bool room true, List.forall_mem_singleton.mpr sendable⟩)

theorem sendable_invalid (room : Nat) (cause : InvalidRequest) (unsplit : cause.message.Unsplit) :
    Sendable (room + 1) (invalid cause).toJson :=
  sendable_object room _ ["ok", "category", "message"] rfl (by decide) (by decide)
    (List.forall_mem_cons.mpr ⟨.bool room false, List.forall_mem_cons.mpr
      ⟨.string room _ (Text.unsplit_ofString _),
        List.forall_mem_singleton.mpr (.string room _ unsplit)⟩⟩)

theorem sendable_members (room : Nat) (detail : Detail) (unsplit : ∀ t ∈ detail.texts, t.Unsplit)
    (numbers : ∀ n ∈ detail.numbers, n.IsSendable) :
    ∀ member ∈ detail.members, Sendable (room + 1) member.2 := by
  cases detail with
  | none => exact List.forall_mem_nil _
  | text t | name t | session t =>
      exact List.forall_mem_singleton.mpr (.string _ t (unsplit t List.mem_cons_self))
  | limit limit =>
      exact List.forall_mem_singleton.mpr (.number _ _ (numbers _ List.mem_cons_self))
  | operation operator operands =>
      have each : ∀ v ∈ operands.map Json.number, Sendable room v := by
        intro v member
        obtain ⟨n, inOperands, rfl⟩ := List.mem_map.mp member
        exact .number room n (numbers n inOperands)
      have named := unsplit operator List.mem_cons_self
      exact List.forall_mem_cons.mpr
        ⟨.string _ operator named, List.forall_mem_singleton.mpr (.array room _ each)⟩

theorem sendable_report (room : Nat) (report : Report) (unsplit : report.Unsplit)
    (numbers : ∀ n ∈ report.detail.numbers, n.IsSendable) :
    Sendable (room + 2) (fault report).toJson := by
  -- which keys there are depends on the kind of detail alone
  have keys : ∃ keys, report.detail.members.map Prod.fst = keys ∧
      ("ok" :: "error" :: "category" :: "message" :: keys : List Text).Nodup ∧
      ∀ key ∈ ("ok" :: "error" :: "category" :: "message" :: keys : List Text), key.Unsplit := by
    cases report.detail with
    | none => exact ⟨[], rfl, by decide⟩
    | text t => exact ⟨["text"], rfl, by decide⟩
    | name t => exact ⟨["name"], rfl, by decide⟩
    | operation operator operands => exact ⟨["operator", "operands"], rfl, by decide⟩
    | session id => exact ⟨["session"], rfl, by decide⟩
    | limit limit => exact ⟨["limit"], rfl, by decide⟩
  obtain ⟨keys, known, distinct, scalar⟩ := keys
  have detail := sendable_members room report.detail unsplit.detail numbers
  refine sendable_object (room + 1) _ ("ok" :: "error" :: "category" :: "message" :: keys) ?_ distinct
    scalar ?_
  · rw [← known]
    rfl
  · exact List.forall_mem_cons.mpr ⟨.bool _ false, List.forall_mem_cons.mpr
      ⟨.string _ _ report.kind.unsplit_name, List.forall_mem_cons.mpr
        ⟨.string _ _ report.kind.unsplit_category, List.forall_mem_cons.mpr
          ⟨.string _ _ unsplit.message, detail⟩⟩⟩⟩

theorem isStrict_numbers (report : Report) (strict : (fault report).toJson.isStrict = true) :
    ∀ n ∈ report.detail.numbers, (Json.number n).isStrict = true := by
  have members := (Json.areStrictMembers_iff _).mp strict
  intro n isNumber
  cases shape : report.detail with
  | operation operator operands =>
      rw [shape] at isNumber members
      have operandsStrict := members ("operands", .array (operands.map Json.number))
        (by simp [Detail.members])
      exact (Json.areStrict_iff _).mp operandsStrict _ (List.mem_map_of_mem isNumber)
  | limit limit =>
      rw [shape] at isNumber
      rw [List.mem_singleton.mp isNumber]
      rfl
  | none | text t | name t | session t =>
      rw [shape] at isNumber
      cases isNumber

theorem sendable_missing (room : Nat) (id : Text) (own : id.Unsplit) :
    Sendable (room + 2) (fault (Fault.sessionNotFound id).report).toJson :=
  sendable_report room _ ((Fault.sessionNotFound id).unsplit_report (List.forall_mem_singleton.mpr own))
    (List.forall_mem_nil _)

/-- What a mishap reports can be sent if it has a text at all. -/
theorem sendable_mishap (room : Nat) (failure : Failure) (isMishap : failure.IsMishap)
    (own : ∀ t ∈ failure.texts, t.Unsplit) (strict : (ofFailure failure).toJson.isStrict = true) :
    Sendable (room + 2) (ofFailure failure).toJson := by
  cases isMishap with
  | undefined name =>
      exact sendable_report room _ ((Fault.undefined name).unsplit_report own) (List.forall_mem_nil _)
  | arithmetic cause grounded =>
      -- the dividend may be infinite on its way, but then the report has no text
      have running := cause.isRunning_of_grounded grounded
      have hasText := isStrict_numbers cause.report strict
      exact sendable_report room _ ((Fault.arithmetic cause).unsplit_report own)
        fun n member => n.isSendable_of_isRunning (running n member) (hasText n member)

theorem sendable_ofBindings (room : Nat) (bindings : List (Symbol × Number))
    (distinct : (bindings.map Prod.fst).Nodup) (names : ∀ x ∈ bindings.map Prod.fst, x.name.Unsplit)
    (values : ∀ binding ∈ bindings, binding.2.isAdmissible = true) :
    Sendable (room + 1) (Json.ofBindings bindings) := by
  have sameName : Function.Injective Symbol.name := by
    rintro ⟨name, isName⟩ ⟨other, isOther⟩ same
    cases same
    rfl
  refine sendable_object room _ ((bindings.map Prod.fst).map Symbol.name) ?_ ?_ ?_ ?_
  · rw [List.map_map, List.map_map]
    rfl
  · exact List.Nodup.map sameName distinct
  · exact List.forall_mem_map.mpr names
  · refine List.forall_mem_map.mpr fun binding member => ?_
    exact .number room _ (binding.2.isSendable_of_isAdmissible (values binding member))

end Reply

end ParenCalc
