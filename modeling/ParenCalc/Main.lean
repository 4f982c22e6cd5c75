import ParenCalc.Command.Launch
import Std.Async.DNS
import Std.Async.TCP
import Std.Sync.Mutex
/-!
# The program

The outer layer: it fetches the environment, the words of the command line, files and bytes from
clients, hands them to the library, and writes what the library answers.
-/
set_option autoImplicit false

namespace ParenCalc.Program

open Std.Async

def usage : Text :=
  "usage: parencalc [--log-level LEVEL] repl | run PATH | serve [--host HOST] [--port NUMBER]\n"

def environment : IO Settings.Environment := do
  let values ← Settings.variableNames.mapM fun name => do
    return (name, ← IO.getEnv (Text.toString name))
  return fun name => (values.lookup name).join.map Text.ofString

def finish (o : Outcome) : IO UInt32 := do
  IO.print (Text.toString o.output)
  IO.eprint (Text.toString o.errors)
  return UInt32.ofNat o.code

def refuse (message : Text) : IO UInt32 := finish ⟨1, [], message ++ "\n"⟩

/-- The error of the system behind a number, which may come negated. -/
def fileErrorOf? (candidates : List FileError) (number : UInt32) : Option FileError :=
  candidates.find? fun e =>
    UInt32.ofNat e.number = number ∨ UInt32.ofNat e.number + number = 0

/-- The error of the system behind an error of reading, if it is one that a script run reports. -/
def fileError? : IO.Error → Option FileError
  | .noFileOrDirectory .. => some .notFound
  | .permissionDenied .. => some .denied
  | .inappropriateType _ number _ => fileErrorOf? [.notDirectory, .isDirectory] number
  | .invalidArgument _ number _ => fileErrorOf? [.nameTooLong] number
  | _ => none

def runScript (path : Text) : IO UInt32 := do
  let read ← (IO.FS.readBinFile (Text.toString (Script.normalized path))).toBaseIO
  match read with
  | .ok bytes =>
    match Script.run bytes.toList with
    | .ok outcome => finish outcome
    | .error refusal => refuse refusal.message
  | .error e =>
    match fileError? e with
    | some cause => finish (Script.unreadable path cause)
    | none => throw e

/-- Prompts, reads a line when none is pending, and answers. -/
partial def prompt (input output : IO.FS.Stream) (pending : List Text) (i : Interpreter) :
    IO UInt32 := do
  output.putStr (Text.toString Prompt.mark)
  output.flush
  let lines ←
    if pending.isEmpty then
      pure (Text.lines (Text.foldLineEnds (Text.ofString (← input.getLine))))
    else pure pending
  match lines with
  | [] =>
    output.putStr "\n"
    return 0
  | line :: rest =>
    let (written, i) := Prompt.reply line i
    output.putStr (Text.toString written)
    prompt input output rest i

def clock : IO Binary64 := return .ofRatio false (← IO.monoMsNow) 1000

/-- Answers complete lines one by one and tells whether the connection goes on. -/
def answerLines (registry : Std.Mutex Registry) (client : TCP.Socket.Client) :
    List (List UInt8) → IO Bool
  | [] => return true
  | line :: rest => do
    let now ← clock
    let progress : Connection.Progress ← registry.atomically do
      let progress := Connection.answerLines none [line] { (← get) with clock := now }
      set progress.registry
      return progress
    for reply in progress.sent do
      (client.send (ByteArray.mk (Utf8.encode reply).toArray)).block
    if progress.allowance.isSome then answerLines registry client rest else return false

/-- Attends to a client that has sent the bytes `pending` of an incomplete line. -/
partial def attend (registry : Std.Mutex Registry) (client : TCP.Socket.Client)
    (pending : List UInt8) : IO Unit := do
  match ← (client.recv? 4096).block with
  | none => client.shutdown.block
  | some bytes =>
    let (lines, tail) := Connection.splitLines (pending ++ bytes.toList)
    if ← answerLines registry client lines then attend registry client tail
    else client.shutdown.block

partial def accept (registry : Std.Mutex Registry) (server : TCP.Socket.Server) : IO Unit := do
  let client ← server.accept.block
  let _ ← IO.asTask (attend registry client []) .dedicated
  accept registry server

/-- Evicts idle sessions again and again, `pause` milliseconds apart. -/
partial def reap (registry : Std.Mutex Registry) (pause : UInt32) : IO Unit := do
  IO.sleep pause
  let now ← clock
  registry.atomically do
    let (_, after) := (← get).evict [] now
    set after
  reap registry pause

def address (host : String) : IO Std.Net.IPv4Addr := do
  if let some a := Std.Net.IPv4Addr.ofString host then return a
  for found in ← (DNS.getAddrInfo host "").block do
    if let .v4 a := found then return a
  throw (IO.userError ("no address for " ++ host))

def serve (settings : Settings) (host : Text) (portNumber : Int) : IO UInt32 := do
  if portNumber < 0 ∨ 65535 < portNumber then return ← refuse "no such service number"
  let bytes ← IO.getRandomBytes 15
  let base := bytes.toList.foldl (fun n b => n * 256 + b.toNat) 0
  let registry ← Std.Mutex.new (Launch.registry settings (.ofScript [] base) (← clock))
  let server ← TCP.Socket.Server.mk
  server.bind (.v4 ⟨← address (Text.toString host), UInt16.ofNat portNumber.toNat⟩)
  server.listen 5
  if settings.idleTimeout.isSome ∧ settings.reaperInterval.isFinite then
    let pause := (settings.reaperInterval.units * 1000 / Binary64.one).toNat
    let _ ← IO.asTask (reap registry (UInt32.ofNat (min pause 0xFFFFFFFF))) .dedicated
  accept registry server
  return 0

def launch (l : Launch) : IO UInt32 := do
  match l.task with
  | .repl => prompt (← IO.getStdin) (← IO.getStdout) [] .fresh
  | .run path => runScript path
  | .serve (some host) (some portNumber) => serve l.settings host portNumber
  | .serve _ _ => refuse "no address to listen at"

def run (words : List Text) : IO UInt32 := do
  match Launch.ofCommandLine (← environment) words with
  | .ok l => launch l
  | .error (.setting e) => finish (Launch.invalidSetting e)
  | .error (.arguments .help) => finish ⟨Launch.stopCode .help, usage, []⟩
  | .error (.arguments .usage) => finish ⟨Launch.stopCode .usage, [], usage⟩
  | .error (.unknownLevel level) => refuse (Launch.unknownLevelMessage level)
  | .error .noLevel => refuse "no log level"

end ParenCalc.Program

def main (words : List String) : IO UInt32 :=
  ParenCalc.Program.run (words.map ParenCalc.Text.ofString)
