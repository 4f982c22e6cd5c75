import ParenCalc.Json.Parse
import ParenCalc.Text.Utf8
/-!
# Requests

A request is a JSON object with a command and the fields that the command needs.  The session comes
first among the fields that are checked.
-/
set_option autoImplicit false

namespace ParenCalc

inductive Request
  | create
  | eval (session code : Text)
  | listing (session : Text) (start : Option Text)
  | valueOf (session name : Text)
  | finish (session : Text)

inductive InvalidRequest
  | undecodable (refusal : Utf8.Refusal)
  | unreadable (what : Json.Expected) (position : Nat) (text : Text)
  | notObject
  | unknownCommand (command : Json)
  | fieldNeeded (name : Text)
  | fieldNotText (name : Text)

def Utf8.Reason.message : Utf8.Reason → Text
  | .badStart => "invalid start byte"
  | .badContinuation => "invalid continuation byte"
  | .truncated => "unexpected end of data"

def Utf8.Refusal.message (r : Utf8.Refusal) : Text :=
  let place : Text :=
    if r.last = r.first + 1 then
      "byte 0x" ++ Text.hex 2 r.lead.toNat ++ " in position " ++ Text.ofNat r.first
    else "bytes in position " ++ Text.ofNat r.first ++ "-" ++ Text.ofNat (r.last - 1)
  "'utf-8' codec can't decode " ++ place ++ ": " ++ r.reason.message

def InvalidRequest.message : InvalidRequest → Text
  | .undecodable refusal => "Invalid request: " ++ refusal.message
  | .unreadable what position text => "Invalid request: " ++ what.describe position text
  | .notObject => "Request must be a JSON object"
  | .unknownCommand command => "Unknown cmd: " ++ command.shown
  | .fieldNeeded name => "Missing or non-string field: " ++ name
  | .fieldNotText name => "Non-string field: " ++ name

namespace Request

def field (name : Text) (members : List (Text × Json)) : Except InvalidRequest Text :=
  match Json.member? name members with
  | some (.string t) => .ok t
  | _ => .error (.fieldNeeded name)

def optionalField (name : Text) (members : List (Text × Json)) :
    Except InvalidRequest (Option Text) :=
  match Json.member? name members with
  | none => .ok none
  | some .null => .ok none
  | some (.string t) => .ok (some t)
  | some _ => .error (.fieldNotText name)

def ofCommand (command : Text) (members : List (Text × Json)) : Except InvalidRequest Request := do
  if command = "create" then return .create
  else if command = "eval" then
    return .eval (← field "session" members) (← field "code" members)
  else if command = "vars" then
    return .listing (← field "session" members) (← optionalField "prefix" members)
  else if command = "get" then
    return .valueOf (← field "session" members) (← field "name" members)
  else if command = "end" then return .finish (← field "session" members)
  else throw (.unknownCommand (.string command))

def ofJson : Json → Except InvalidRequest Request
  | .object members =>
    match Json.member? "cmd" members with
    | some (.string command) => ofCommand command members
    | some v => .error (.unknownCommand v)
    | none => .error (.unknownCommand .null)
  | _ => .error .notObject

end Request

end ParenCalc
