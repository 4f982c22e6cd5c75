import ParenCalc.Json.Render
import ParenCalc.Server.Request
import ParenCalc.Session.Registry
/-!
# Replies

Every line that is a request gets one reply, a JSON object on one line that says whether the request
succeeded.  A line that can be decoded but holds an integer too long or values too deeply nested
gets none: the failure is the connection's.
-/
set_option autoImplicit false

namespace ParenCalc

inductive Reply
  | result (value : Json)
  | fault (report : Report)
  | invalid (cause : InvalidRequest)
  | broken

def Detail.members : Detail → List (Text × Json)
  | .none => []
  | .text t => [("text", .string t)]
  | .name t => [("name", .string t)]
  | .operation operator operands =>
    [("operator", .string operator), ("operands", .array (operands.map Json.number))]
  | .session id => [("session", .string id)]
  | .limit n => [("limit", .number (.int n))]

namespace Reply

def toJson : Reply → Json
  | .result value => .object [("ok", .bool true), ("result", value)]
  | .fault report =>
    .object (("ok", .bool false) :: ("error", .string report.kind.name) ::
      ("category", .string report.kind.category) :: ("message", .string report.message) ::
      report.detail.members)
  | .invalid cause =>
    .object [("ok", .bool false), ("category", .string "invalid-request"),
      ("message", .string cause.message)]
  | .broken =>
    .object [("ok", .bool false), ("category", .string "internal"),
      ("message", .string "Internal server error")]

/-- The line of a reply.  A reply with a number that JSON cannot write is replaced by an apology. -/
def line (reply : Reply) : Text :=
  (if reply.toJson.isStrict then reply.toJson else broken.toJson).render ++ "\n"

def ofFailure : Failure → Reply
  | .fault cause => .fault cause.report
  | .misuse _ => .broken

def ofOutcome {α : Type} (encode : α → Json) : Except Failure α → Reply
  | .ok value => .result (encode value)
  | .error failure => ofFailure failure

end Reply

def Json.ofBindings (bindings : List (Symbol × Number)) : Json :=
  .object (bindings.map fun binding => (binding.1.name, .number binding.2))

namespace Registry

def answer (request : Request) (r : Registry) : Reply × Registry :=
  match request with
  | .create =>
    let (outcome, r) := r.create
    (.ofOutcome .string outcome, r)
  | .eval session code =>
    let (outcome, r) := r.eval session code
    (.ofOutcome .number outcome, r)
  | .listing session start =>
    let (outcome, r) := r.listing session start
    (.ofOutcome .ofBindings outcome, r)
  | .valueOf session name =>
    let (outcome, r) := r.valueOf session name
    (.ofOutcome .number outcome, r)
  | .finish session => (.result .null, r.finish session)

def answerJson (v : Json) (r : Registry) : Reply × Registry :=
  match Request.ofJson v with
  | .ok request => r.answer request
  | .error cause => (.invalid cause, r)

/-- Answers a line of bytes, unless it goes past the limits of reading. -/
def answerBytes (bytes : List UInt8) (r : Registry) : Except Json.Overrun Reply × Registry :=
  match Utf8.decode bytes with
  | .error refusal => (.ok (.invalid (.undecodable refusal)), r)
  | .ok text =>
    match Json.parse text with
    | .error (.expected what position) => (.ok (.invalid (.unreadable what position text)), r)
    | .error (.overrun overrun) => (.error overrun, r)
    | .ok v =>
      let (reply, r) := r.answerJson v
      (.ok reply, r)

def answerLine (bytes : List UInt8) (r : Registry) : Except Json.Overrun Text × Registry :=
  let (reply, r) := r.answerBytes bytes
  (reply.map Reply.line, r)

end Registry

end ParenCalc
