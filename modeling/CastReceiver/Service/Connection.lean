import CastReceiver.Event.Report
import CastReceiver.Machine.Snapshot
import CastReceiver.Service.Basic

/-!
# Connections

A client on a socket first gets a snapshot and then every event. It may send reports, and
heartbeats to which it gets an answer.
-/
namespace CastReceiver

/-- What a client sends. -/
inductive Incoming where
  | report (r : Report)
  | heartbeat
  deriving DecidableEq

namespace Incoming

def tags : List String := ["EVENT", "HEARTBEAT"]

/-- What the body of a tagged record stands for. In a report, all of which has been read by then,
the number of a type may stand for the type. -/
def ofBody? (tag : String) (body : Json.Body) : Option Incoming :=
  match tag with
  | "EVENT" =>
    match body.required? ["payload"] with
    | some [payload] => (Report.ofJson? true payload).map .report
    | _ => none
  | "HEARTBEAT" => (body.required? []).map fun _ => .heartbeat
  | _ => none

def read (s : List Char) : Except Json.Fault (Incoming × List Char) := do
  let ((tag, body), s) ← Json.tagged tags s
  match ofBody? tag body with
  | some i => .ok (i, s)
  | none => .error .unfit

/-- What a whole text stands for. -/
def parse (text : String) : Except Json.Fault Incoming :=
  Json.whole read text

end Incoming

/-- What a client is sent. -/
inductive Outgoing where
  | initialState (s : Snapshot)
  | event (e : Event)
  | heartbeatAck
  /-- What the client sent was not understood. -/
  | invalidMessage

def Outgoing.toJson : Outgoing → Json
  | .initialState s => .object [("type", .string "INITIAL_STATE"), ("payload", s.toJson)]
  | .event e => e.toJson
  | .heartbeatAck => .object [("type", .string "HEARTBEAT_ACK")]
  | .invalidMessage =>
    .object [("type", .string "ERROR"), ("message", .string "Invalid message")]

/-- What happens at the client's end of a connection. -/
inductive Arrival where
  | message (m : Outgoing)
  /-- The service closes the connection. -/
  | close
  /-- The connection is over. -/
  | ended

/-- The service's end of a connection. -/
structure Connection where
  /-- The number under which the client is registered. -/
  client : Nat
  /-- The position in the channel of the hub from which on the client gets events. -/
  position : Nat
  deriving DecidableEq

namespace Service

/-- A client connects. -/
def connect (s : Service) : Outgoing × Connection × Service :=
  let (client, clients) := s.clients.register s.machine.now
  (.initialState s.machine.snapshot, ⟨client, s.hub.channel.position⟩, { s with clients })

/-- The reply to what a client sends, and the service after it. -/
def receive (s : Service) (c : Connection) (text : String) : Option Outgoing × Service :=
  match Incoming.parse text with
  | .ok (.report r) =>
    let clients := s.clients.recordEvent c.client s.machine.now
    (none, ({ s with clients }.call (.report r)).2)
  | .ok .heartbeat => (some .heartbeatAck, s)
  | .error _ => (some .invalidMessage, s)

/-- A connection is over, and its client is not registered any more. -/
def disconnect (s : Service) (c : Connection) : Service :=
  { s with clients := s.clients.release c.client }

/-- The client has been told to close. -/
def isCancelled (s : Service) (c : Connection) : Bool :=
  (s.clients.find? c.client).any Client.cancelled

/-- The events since a client last got any, but for those that it has lost, or the end of the
connection when the client has been told to close. -/
def attend (s : Service) (c : Connection) : List Arrival × Option Connection × Service :=
  if s.isCancelled c then ([.close, .ended], none, s.disconnect c)
  else
    ((s.hub.channel.read c.position).items.map fun e => .message (.event e),
      some { c with position := s.hub.channel.position }, s)

end Service

end CastReceiver
