import CastReceiver.Decision
import CastReceiver.Peer
import CastReceiver.Phase
import CastReceiver.Player

/-!
# Events

What the receiver tells the world: notifications to listeners, changes of its state, and commands
to the processes that run discovery and playback. Each is written as an object with its category
and its type.
-/
namespace CastReceiver

/-- The name of one attempt to cast. -/
structure SessionId where
  text : String
  deriving DecidableEq, Inhabited

inductive Notification where
  /-- A peer asks to connect and waits for a decision. -/
  | connectionRequest (peer : Peer) (timestamp : Nat)
  /-- An attempt to connect, or a session, ended abnormally. -/
  | connectionError (peer : Peer) (reasonCode : Nat) (timestamp : Nat)
  /-- An accepted peer wants playback to begin. -/
  | launchRequest (launch : Launch) (timestamp : Nat)
  deriving DecidableEq

inductive StateEvent where
  | changed (source target : Phase) (sessionId : Option SessionId) (timestamp : Nat)
  | playerStateChanged (mac : String) (state : PlayerState) (timestamp : Nat)
  | enabledChanged (enabled : Bool) (timestamp : Nat)
  deriving DecidableEq

inductive Command where
  | restartDiscovery
  | stopDiscovery
  | acceptClientConnection (decision : Decision)
  /-- The session is torn down and discovery restarted for a peer. -/
  | restartSessionDiscovery (mac : String)
  /-- The pending launch comes from this source. -/
  | switchLaunchRequestContext (launch : Launch)
  /-- The session is dropped without restarting discovery. -/
  | flushCurrentSession
  | setBackendDiscovery (enabled : Bool)
  | setFriendlyName (name : String)
  /-- The player is to render the stream of a launch. -/
  | beginPlayback (launch : Launch)
  deriving DecidableEq

inductive Event where
  | notification (n : Notification)
  | state (s : StateEvent)
  | command (c : Command)
  deriving DecidableEq

namespace Notification

def kind : Notification → String
  | .connectionRequest .. => "clientConnectionRequest"
  | .connectionError .. => "clientConnectionError"
  | .launchRequest .. => "launchRequest"

def members : Notification → Json.Members
  | .connectionRequest p t =>
    [("mac", .string p.mac), ("name", .string p.name), ("timestamp", .natural t)]
  | .connectionError p reason t =>
    [("mac", .string p.mac), ("name", .string p.name), ("reasonCode", .natural reason),
      ("timestamp", .natural t)]
  | .launchRequest l t => l.members ++ [("timestamp", .natural t)]

/-- The form in which listeners see a notification. -/
def toJson (n : Notification) : Json :=
  .object (("type", .string n.kind) :: n.members)

end Notification

namespace StateEvent

def kind : StateEvent → String
  | .changed .. => "changed"
  | .playerStateChanged .. => "playerStateChanged"
  | .enabledChanged .. => "enabledChanged"

def members : StateEvent → Json.Members
  | .changed source target id t =>
    [("from", source.toJson), ("to", target.toJson)] ++
    (id.map fun i => ("sessionId", Json.string i.text)).toList ++ [("timestamp", .natural t)]
  | .playerStateChanged mac state t =>
    [("mac", .string mac), ("playerState", state.toJson), ("timestamp", .natural t)]
  | .enabledChanged enabled t => [("enabled", .bool enabled), ("timestamp", .natural t)]

end StateEvent

namespace Command

def kind : Command → String
  | .restartDiscovery => "restartDiscovery"
  | .stopDiscovery => "stopDiscovery"
  | .acceptClientConnection _ => "acceptClientConnection"
  | .restartSessionDiscovery _ => "restartSessionDiscovery"
  | .switchLaunchRequestContext _ => "switchLaunchRequestContext"
  | .flushCurrentSession => "flushCurrentSession"
  | .setBackendDiscovery _ => "setP2pBackendDiscovery"
  | .setFriendlyName _ => "setFriendlyName"
  | .beginPlayback _ => "beginPlayback"

/-- Playback is the player's business, all else that of discovery. -/
def category : Command → String
  | .beginPlayback _ => "player"
  | _ => "discovery"

def members : Command → Json.Members
  | .acceptClientConnection d => [("decision", d.toJson)]
  | .restartSessionDiscovery mac => [("mac", .string mac)]
  | .switchLaunchRequestContext l => [("launch", l.toJson)]
  | .setBackendDiscovery enabled => [("enabled", .bool enabled)]
  | .setFriendlyName name => [("friendlyName", .string name)]
  | .beginPlayback l => [("launch", l.toJson)]
  | _ => []

end Command

namespace Event

def category : Event → String
  | .notification _ => "notification"
  | .state _ => "state"
  | .command c => c.category

def kind : Event → String
  | .notification n => n.kind
  | .state s => s.kind
  | .command c => c.kind

def members : Event → Json.Members
  | .notification n => n.members
  | .state s => s.members
  | .command c => c.members

def toJson (e : Event) : Json :=
  .object (("category", .string e.category) :: ("type", .string e.kind) :: e.members)

end Event

end CastReceiver
