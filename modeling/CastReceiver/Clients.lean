import CastReceiver.Json.Basic
import CastReceiver.Text.Digits

/-!
# Connected clients

The registry of the clients on sockets. Each has a number of its own that is never given again,
and counts the reports it has delivered. All of them can be told to close; they stay registered
until they are released.
-/
namespace CastReceiver

structure Client where
  id : Nat
  connectedAt : Nat
  eventsReceived : Nat := 0
  /-- When the client delivered its latest report. -/
  lastEventAt : Option Nat := none
  /-- The client has been told to close. -/
  cancelled : Bool := false
  deriving DecidableEq

structure Clients where
  /-- The registered clients, in the order of their numbers. -/
  entries : List Client := []
  /-- No client has had this number or a larger one. -/
  nextId : Nat := 1
  deriving DecidableEq

namespace Client

/-- The name of a client in texts for people. -/
def label (id : Nat) : String :=
  "ws-" ++ Text.decimal id

/-- A report is counted. -/
def record (c : Client) (now : Nat) : Client :=
  { c with eventsReceived := c.eventsReceived + 1, lastEventAt := some now }

def cancel (c : Client) : Client :=
  { c with cancelled := true }

def toJson (c : Client) : Json :=
  .object [("id", .natural c.id), ("connectedAt", .natural c.connectedAt),
    ("eventsReceived", .natural c.eventsReceived),
    ("lastEventAt", Json.orNull .natural c.lastEventAt)]

end Client

namespace Clients

def count (cs : Clients) : Nat :=
  cs.entries.length

def find? (cs : Clients) (id : Nat) : Option Client :=
  cs.entries.find? (·.id == id)

/-- Registers a new client, and gives its number. -/
def register (cs : Clients) (now : Nat) : Nat × Clients :=
  (cs.nextId,
    { entries := cs.entries ++ [{ id := cs.nextId, connectedAt := now }]
      nextId := cs.nextId + 1 })

/-- A client has delivered a report; one that is not registered is not counted. -/
def recordEvent (cs : Clients) (id now : Nat) : Clients :=
  { cs with entries := cs.entries.map fun c => if c.id = id then c.record now else c }

def release (cs : Clients) (id : Nat) : Clients :=
  { cs with entries := cs.entries.filter (·.id != id) }

/-- Every registered client is told to close, and counted. -/
def closeAll (cs : Clients) : Nat × Clients :=
  (cs.count, { cs with entries := cs.entries.map Client.cancel })

end Clients

end CastReceiver
