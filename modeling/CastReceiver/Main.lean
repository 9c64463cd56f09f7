import CastReceiver.Json.Printer
import CastReceiver.Server.Options
import CastReceiver.Service.Connection

/-!
# The program

A server with one client, which is connected by the standard streams: each line from it is a
message, and each line to it is one. The clock of the service is set whenever a line has come.
-/
open CastReceiver

/-- The file that a server is told to load. -/
def readSettings (path : Option String) : IO ServerSettings.File := do
  match path with
  | none => return .unnamed
  | some path =>
    try return .content (← IO.FS.readFile path)
    catch _ => return .unreadable

/-- The variables that settings depend on. -/
def readEnvironment : IO ServerSettings.Environment := do
  let names := ["CASTGATE_BIND_PORT", "CASTGATE_AUTO_ACCEPT", "CASTGATE_FRIENDLY_NAME",
    "CASTGATE_CONNECTION_ACCEPT_TIMEOUT_MS"]
  let values ← names.mapM fun name => return (name, ← IO.getEnv name)
  return fun name => (values.lookup name).join

/-- The name of the host, under which a device is advertised that has no other name. -/
def readHostName : IO NameSource := do
  try
    let text ← IO.FS.readFile "/etc/hostname"
    return .configured (String.ofList (Text.trim text.toList))
  catch _ => return fun _ => none

def printArrival : Arrival → IO Unit
  | .message m => IO.println m.toJson.text
  | _ => pure ()

/-- Serves the client until it says no more, or is told to close. -/
partial def serve (service : Service) (connection : Connection) (time : Nat) : IO Unit := do
  let (arrivals, connection, service) := service.settle.attend connection
  arrivals.forM printArrival
  let some connection := connection | return
  let line ← (← IO.getStdin).getLine
  let now ← IO.monoMsNow
  let service := service.advance (now - time)
  if line.isEmpty then
    let (arrivals, _, _) := service.shutdown.attend connection
    arrivals.forM printArrival
  else
    let (reply, service) := service.receive connection line
    reply.toList.forM fun m => printArrival (.message m)
    serve service connection now

def main (arguments : List String) : IO UInt32 := do
  let options ← match ServerOptions.ofArguments {} arguments with
    | .ok options => pure options
    | .error fault => IO.eprintln fault.message; return 2
  let settings ← match ServerSettings.load (← readSettings options.config) (← readEnvironment) with
    | .ok settings => pure (options.apply settings)
    | .error fault => IO.eprintln fault.message; return 1
  let source ← match settings.friendlyName with
    | some name => pure (.configured name)
    | none => readHostName
  match Service.ofSettings settings.toSettings (some source) with
  | .error failure => IO.eprintln failure.message; return 1
  | .ok service =>
    let (greeting, connection, service) := service.connect
    printArrival (.message greeting)
    serve service.start connection (← IO.monoMsNow)
    return 0
