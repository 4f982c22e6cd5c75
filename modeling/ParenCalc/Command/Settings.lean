import ParenCalc.Number.Basic
import ParenCalc.Number.Numeral
import ParenCalc.Text.Blank
import ParenCalc.Text.Quoted
import ParenCalc.Text.Uppercase
/-!
# Settings

What the environment of the program decides.  A variable that is absent or blank leaves its default;
a time or a number of zero switches its limit off.
-/
set_option autoImplicit false

namespace ParenCalc

structure InvalidSetting where
  name : Text
  value : Text
deriving DecidableEq

def InvalidSetting.message (e : InvalidSetting) : Text :=
  "Invalid value for " ++ e.name ++ ": " ++ Text.quoted e.value

structure Settings where
  idleTimeout : Option Binary64
  maxSessions : Option Int
  reaperInterval : Binary64
  host : Text
  portNumber : Int
  logLevel : Text
deriving DecidableEq

namespace Settings

abbrev Environment := Text → Option Text

def variableNames : List Text :=
  ["LISPCORE_HOST", "LISPCORE_PORT", "LISPCORE_SESSION_IDLE_TIMEOUT", "LISPCORE_MAX_SESSIONS",
    "LISPCORE_REAPER_INTERVAL", "LISPCORE_LOG_LEVEL"]

def defaultHost : Text := "127.0.0.1"

def defaultPort : Int := 8765

def defaultLogLevel : Text := "WARNING"

def defaultReaperInterval : Binary64 := .ofInt 30

/-- The value of a variable as `parse` reads it without the blanks around it. -/
def setting {α : Type} (env : Environment) (name : Text) (parse : Text → Option α) (default : α) :
    Except InvalidSetting α :=
  match env name with
  | none => .ok default
  | some value =>
    if Text.isBlank value then .ok default
    else
      match parse (Text.trim value) with
      | some a => .ok a
      | none => .error ⟨name, value⟩

def timeout? (x : Binary64) : Option Binary64 := if (Number.float x).isZero then none else some x

def limit? (n : Int) : Option Int := if n = 0 then none else some n

def ofEnvironment (env : Environment) : Except InvalidSetting Settings := do
  let host ← setting env "LISPCORE_HOST" some defaultHost
  let portNumber ← setting env "LISPCORE_PORT" Numeral.groupedInteger? defaultPort
  let idleTimeout ← setting env "LISPCORE_SESSION_IDLE_TIMEOUT"
    (fun t => (Numeral.float? t).map timeout?) none
  let maxSessions ← setting env "LISPCORE_MAX_SESSIONS"
    (fun t => (Numeral.groupedInteger? t).map limit?) none
  let reaperInterval ← setting env "LISPCORE_REAPER_INTERVAL" Numeral.float? defaultReaperInterval
  let logLevel ← setting env "LISPCORE_LOG_LEVEL" (fun t => some (Text.uppercase t))
    defaultLogLevel
  return ⟨idleTimeout, maxSessions, reaperInterval, host, portNumber, logLevel⟩

end Settings

end ParenCalc
