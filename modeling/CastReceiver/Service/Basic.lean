import CastReceiver.Clients
import CastReceiver.Hub.Basic
import CastReceiver.Machine.Operations
import CastReceiver.Timer.Clockwork

/-!
# The service

The machine, the hub on which all that it says goes out, and the clients on sockets. Commands go
to whoever listens to the hub and nobody calls back while they are issued, so an operation of the
machine runs to its end, and what it has said is published in the same order.
-/
namespace CastReceiver

structure Service where
  settings : Settings
  machine : Machine
  hub : Hub
  clients : Clients := {}

namespace Service

/-- A service of parts that were made elsewhere. -/
def ofParts (machine : Option Machine) (hub : Option Hub) (settings : Settings) :
    Except Failure Service :=
  match machine, hub with
  | none, _ => .error (.configuration "machine is required")
  | some _, none => .error (.configuration "hub is required")
  | some machine, some hub => .ok { settings, machine, hub }

/-- A service by its settings, unless there is an objection to them. -/
def ofSettings (settings : Settings) (nameSource : Option NameSource) : Except Failure Service :=
  match settings.objection? with
  | some o => .error (.configuration o.message)
  | none => .ok
    { settings
      machine := { settings := settings.session, nameSource }
      hub := .ofCapacity settings.eventChannelCapacity }

/-! ## Operations of the machine -/

/-- Publishes an entry of the journal that is an event. -/
def publishEntry (h : Hub) (e : Entry) : Hub :=
  match e.happening with
  | .event e => h.emit e
  | _ => h

/-- What the machine has said goes out on the hub. -/
def publishJournal (s : Service) : Service :=
  { s with
    machine := { s.machine with journal := [] }
    hub := s.machine.journal.foldl publishEntry s.hub }

/-- A run of the machine to its end. -/
def complete (s : Service) (r : Run α) : α × Service :=
  let (machine, a) := r.quietly
  (a, { s with machine }.publishJournal)

/-- A request to the machine. -/
def call (s : Service) (c : Call) : Reply × Service :=
  s.complete (s.machine.perform c)

def start (s : Service) : Service :=
  (s.call .start).2

def closeAll (s : Service) : Nat × Service :=
  let (n, clients) := s.clients.closeAll
  (n, { s with clients })

/-- The clients are told to close, the machine shuts down, and no alarm goes off any more. -/
def shutdown (s : Service) : Service :=
  let s := (s.closeAll.2.call .shutdown).2
  { s with machine := s.machine.withTimetable s.machine.watchdogs.timetable.stop }

/-! ## Time -/

/-- Without anybody who calls back, a task sets no alarm that is due at once. -/
def clockwork : Timer.Clockwork Service Task where
  timetable s := s.machine.watchdogs.timetable
  withTimetable s t := { s with machine := s.machine.withTimetable t }
  goOff a s := (s.complete (s.machine.ring a)).2
  echoes _ := 0

def settle (s : Service) : Service := clockwork.settle s

def advance (ms : Nat) (s : Service) : Service := clockwork.advance ms s

end Service

end CastReceiver
