import CastReceiver.Machine.Basic

/-!
# Snapshots

What the outside sees of a machine at a moment.
-/
namespace CastReceiver

structure Snapshot where
  session : Session
  gate : Gate
  powerMode : PowerMode
  resumesOnWake : Bool
  radio : Radio
  armed : List Timer.WatchdogKind
  deriving DecidableEq

def Machine.snapshot (m : Machine) : Snapshot where
  session := m.session
  gate := m.gate
  powerMode := m.power.mode
  resumesOnWake := m.power.resumesOnWake
  radio := m.radio
  armed := m.watchdogs.armedKinds

def Snapshot.toJson (s : Snapshot) : Json :=
  .object
    [("state", s.session.phase.toJson),
      ("sessionId", Json.orNull (fun i => .string i.text) s.session.id),
      ("pendingPeer", Json.orNull PendingPeer.toJson s.session.pending),
      ("activePeer", Json.orNull Peer.toJson s.session.active),
      ("preemptingPeer", Json.orNull Peer.toJson s.session.preempting),
      ("playerState", s.session.player.toJson),
      ("serviceEnabled", .bool s.gate.enabled),
      ("discoveryActive", .bool s.gate.active),
      ("powerState", s.powerMode.toJson),
      ("wasActiveBeforeSleep", .bool s.resumesOnWake),
      ("wifiState", s.radio.state.toJson),
      ("radioConnecting", .bool s.radio.connecting),
      ("armedWatchdogs", .array (s.armed.map Timer.WatchdogKind.toJson)),
      ("friendlyName", Json.orNull .string s.session.friendlyName)]

end CastReceiver
