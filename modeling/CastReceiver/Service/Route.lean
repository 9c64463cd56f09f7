import CastReceiver.Http.Basic
import CastReceiver.Machine.Snapshot
import CastReceiver.Service.Basic

/-!
# Routes

What can be read from the service by a request, and what can be asked of its machine. A path
belongs to at most one route; another method than those that a route takes is refused.
-/
namespace CastReceiver

/-- The name under which the service reports its health. -/
def serviceName : String := "castgate"

inductive Route where
  | health
  | session
  | enabled
  | accept
  | stop
  | player
  | backendDiscovery
  | events
  | socket
  deriving DecidableEq

namespace Route

def all : List Route :=
  [.health, .session, .enabled, .accept, .stop, .player, .backendDiscovery, .events, .socket]

def path : Route → String
  | .health => "/health"
  | .session => "/api/session"
  | .enabled => "/api/enabled"
  | .accept => "/api/connection/accept"
  | .stop => "/api/connection/stop"
  | .player => "/api/player/state"
  | .backendDiscovery => "/api/p2p-backend-discovery"
  | .events => "/api/events"
  | .socket => "/ws"

/-- The route with exactly this path. -/
def ofPath? (path : String) : Option Route :=
  all.find? fun r => r.path = path

/-! ## Posting -/

/-- A request to the machine from the fields of a record. -/
def callOfFields (spec : List Json.Field) (make : Json.Members → Call) (text : String) :
    Except Json.Fault Call :=
  (Json.readFields spec text).map make

/-- How the text of a request that is posted to a route is read, if anything can be posted. -/
def intake? : Route → Option (String → Except Json.Fault Call)
  | .enabled => some (callOfFields [⟨"enabled", Json.isFlag, true⟩] fun found =>
    .setEnabled (Json.flagOr false found "enabled"))
  | .accept => some (callOfFields [⟨"decision", Json.isText, true⟩] fun found =>
    .decide (Json.textOf found "decision"))
  | .stop => some (callOfFields [⟨"mac", Json.isText, true⟩, ⟨"name", Json.isText, true⟩]
    fun found => .stop (Json.textOf found "mac") (Json.textOf found "name"))
  | .player => some (callOfFields
    [⟨"mac", Json.isText, true⟩, ⟨"state", Json.isText, true⟩,
      ⟨"reasonCode", Json.isNatural limit32, false⟩]
    fun found => .player (Json.textOf found "mac") (Json.textOf found "state")
      (Json.naturalOr 0 found "reasonCode"))
  | .backendDiscovery => some (callOfFields [⟨"enabled", Json.isFlag, true⟩] fun found =>
    .backendDiscovery (Json.flagOr false found "enabled"))
  | .events => some fun text => (Report.parse text).map .report
  | _ => none

end Route

namespace Service

open Http (Request Response)

def healthToJson (s : Service) : Json :=
  .object
    [("status", .string "ok"), ("service", .string serviceName),
      ("connections", .natural s.clients.count),
      ("clients", .array (s.clients.entries.map Client.toJson))]

/-- What is read from a route, if anything can be. Sockets are not opened by a plain request. -/
def read? (s : Service) : Route → Option Response
  | .health => some (.ok s.healthToJson)
  | .session => some (.ok s.machine.snapshot.toJson)
  | .enabled => some (.ok (.object [("enabled", .bool s.machine.gate.enabled)]))
  | .socket => some { status := 400 }
  | _ => none

/-- What is read without the content is the same but for the content. The other end of a socket
cannot be read in this way. -/
def readHead? (s : Service) (route : Route) : Option Response :=
  if route = .socket then none else (s.read? route).map Response.withoutBody

/-- The response that reports the reply of the machine. -/
def responseOf : Reply → Response
  | .ack a => .ok a.toJson
  | .refused e =>
    let failure := Failure.session e
    { status := failure.status, body := some failure.toJson }
  | _ => .ok Ack.done.toJson

/-- What a request comes to that is posted to a route. -/
def post (s : Service) (route : Route) (r : Request) : Response × Service :=
  match route.intake? with
  | none => ({ status := 405 }, s)
  | some intake =>
    match r.entity intake with
    | .error status => ({ status }, s)
    | .ok call =>
      let (reply, s) := s.call call
      (responseOf reply, s)

/-- The response to a request, and the service after it. Everybody may ask for the options of any
path. -/
def respond (s : Service) (r : Request) : Response × Service :=
  if r.method = .options then ({ status := 200 }, s)
  else
    match Route.ofPath? r.path with
    | none => ({ status := 404 }, s)
    | some route =>
      match r.method with
      | .get => ((s.read? route).getD { status := 405 }, s)
      | .head => ((s.readHead? route).getD { status := 405 }, s)
      | .post => s.post route r
      | _ => ({ status := 405 }, s)

end Service

end CastReceiver
