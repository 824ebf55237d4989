import Std.Async.DNS
import Std.Async.TCP
import StepRunner.Phase
import StepRunner.Project.Scaffold
import StepRunner.Runner

namespace StepRunner.Launch

abbrev Socket := Std.Async.TCP.Socket.Client

def succeeds (work : IO Unit) : IO Bool := do
  try
    work
    return true
  catch _ => return false

def disk : Disk IO where
  contains path := succeeds do
    let _ ← IO.FS.realPath path
  createDirectory path := succeeds (IO.FS.createDirAll path)
  writeFile path contents := succeeds (IO.FS.writeFile path contents)

def setup (config : Config) : IO UInt32 := do
  match ← Scaffold.run disk config.projectRoot with
  | .ok created =>
    IO.print (Scaffold.report created)
    return 0
  | .error e =>
    IO.eprintln e.message
    return 1

/-- A connection to the first address of the host. -/
def connectOnce (host : String) (port : Nat) : IO Socket := do
  let addresses ← (Std.Async.DNS.getAddrInfo host (toString port)).block
  let socket ← Std.Async.TCP.Socket.Client.mk
  match addresses.toList with
  | [] => throw (IO.userError (host ++ " did not resolve to any address"))
  | .v4 address :: _ => (socket.connect (.v4 ⟨address, .ofNat port⟩)).block
  | .v6 address :: _ => (socket.connect (.v6 ⟨address, .ofNat port⟩)).block
  socket.noDelay
  return socket

/-- Tries again until the deadline, since the host may not be listening yet. -/
partial def connect (host : String) (port : Nat) (deadline attempts : Nat) : IO Socket := do
  try connectOnce host port
  catch e =>
    if (← IO.monoMsNow) < deadline then
      IO.sleep 100
      connect host port deadline (attempts + 1)
    else
      throw (IO.userError
        s!"Failed to connect to Gauge at {host}:{port} after {attempts} attempt(s): {e}")

/-- A connection that fails has ended. -/
def receive (socket : Socket) : IO (Option ByteArray) := do
  try (socket.recv? 65536).block
  catch _ => return none

/-- Answers the requests that come over a connection. What came and has no answer yet is `pending`. -/
partial def serve (dispatcher : Dispatcher) (socket : Socket) (pending : Source) (world : World) :
    IO UInt32 := do
  let fault (e : ProtocolError) : IO UInt32 := do
    IO.eprintln (StartError.protocol e).report
    return 1
  match Frame.read pending with
  | (.error (.invalid e), _) => fault (.transport e)
  | (.error (.io _), _) | (.ok none, _) =>
    match ← receive socket with
    | none => return 0
    | some received => serve dispatcher socket (pending ++ [.data received.data.toList]) world
  | (.ok (some frame), pending) =>
    match dispatcher.answer frame world with
    | (.panicked reason, _) => throw (IO.userError reason.message)
    | (.done (.error e), _) => fault e
    | (.done (.ok answer), world) =>
      let sent ← succeeds
        (socket.send ⟨(Frame.encode answer.response.encode).toArray⟩).block
      if !sent ∨ answer.isLast then return 0
      serve dispatcher socket pending world

def start (config : Config) : IO UInt32 := do
  match config.port with
  | .error e =>
    IO.eprintln (StartError.config e).report
    return 1
  | .ok port =>
    let deadline := (← IO.monoMsNow) + config.connectTimeoutSecs.toNat * 1000
    let socket ← connect config.host port deadline 1
    let code ← serve (Runner.ofConfig config).dispatcher socket [] .fresh
    discard (succeeds socket.shutdown.block)
    return code

/-- No hooks and steps are registered here: a project builds a `Runner` with its own. -/
def run (indicator : String) : IO UInt32 := do
  let environment ← Config.variableNames.mapM fun name => return (name, ← IO.getEnv name)
  let config := Config.ofEnvironment fun name => (environment.lookup name).join.map Utf8.encode
  match Phase.select (some indicator) with
  | .setup => setup config
  | .start => start config

end StepRunner.Launch

def main (arguments : List String) : IO UInt32 := do
  match StepRunner.CommandLine.parse arguments with
  | .ok indicator => StepRunner.Launch.run indicator
  | .error e =>
    IO.eprintln e.name
    return if e = .displayHelp then 0 else 2
