import ParenCalc.Command.Arguments
import ParenCalc.Command.Script
import ParenCalc.Command.Settings
import ParenCalc.Server.Connection
import ParenCalc.Session.Reaper
/-!
# Launching

The environment and the command line together say what the program is to do.  The settings are
checked before the command line, and the log level after it.  A server may be left without a host or
a number to listen at, which is for the system to refuse.
-/
set_option autoImplicit false

namespace ParenCalc

inductive Task
  | repl
  | run (path : Text)
  | serve (host : Option Text) (portNumber : Option Int)

inductive Launch.Refusal
  | setting (e : InvalidSetting)
  | arguments (stop : Arguments.Stop)
  | unknownLevel (level : Text)
  | noLevel

structure Launch where
  settings : Settings
  task : Task

namespace Launch

def levels : List Text :=
  ["CRITICAL", "FATAL", "ERROR", "WARN", "WARNING", "INFO", "DEBUG", "NOTSET"]

def invalidSetting (e : InvalidSetting) : Outcome := ⟨2, [], "Error: " ++ e.message ++ "\n"⟩

/-- The exit code when the command line names no task. -/
def stopCode : Arguments.Stop → Nat
  | .usage => 2
  | .help => 0

def unknownLevelMessage (level : Text) : Text := "Unknown level: " ++ Text.quoted level

def taskOf (settings : Settings) : Arguments.Request → Task
  | .repl => .repl
  | .run path => .run path
  | .serve host portNumber =>
    .serve (host.resolve settings.host) (portNumber.resolve settings.portNumber)

def ofCommandLine (env : Settings.Environment) (words : List Text) : Except Refusal Launch :=
  match Settings.ofEnvironment env with
  | .error e => .error (.setting e)
  | .ok settings =>
    match Arguments.parse words with
    | .error stop => .error (.arguments stop)
    | .ok (level, request) =>
      match (level.resolve settings.logLevel).map Text.uppercase with
      | none => .error .noLevel
      | some level =>
        if levels.contains level then .ok ⟨settings, taskOf settings request⟩
        else .error (.unknownLevel level)

def registry (settings : Settings) (ids : IdSource) (clock : Binary64) : Registry :=
  .start ⟨settings.idleTimeout, settings.maxSessions⟩ ids clock

end Launch

end ParenCalc
