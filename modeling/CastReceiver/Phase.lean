import CastReceiver.Json.Choice

/-!
# Phases of a session

At any time the one cast session is in exactly one phase, from nothing advertised to a stream that
is being rendered and back.
-/
namespace CastReceiver

inductive Phase where
  /-- Discovery is not running. -/
  | idle
  /-- Advertised as a cast target, no peer engaged. -/
  | discoverable
  /-- A peer asked to connect and waits for a decision. -/
  | connecting
  /-- A peer launched without asking to connect first. -/
  | directLaunchRequested
  /-- A direct launch waits for a decision. -/
  | directLaunchConnecting
  | connectionAccepted
  | connectionRejected
  /-- Discovery is being restarted after a session ended. -/
  | restartingSession
  /-- A stop request is tearing an accepted connection down. -/
  | abortingConnection
  /-- The stream of the peer is being rendered. -/
  | playerLaunched
  deriving DecidableEq, Inhabited

namespace Phase

def all : List Phase :=
  [.idle, .discoverable, .connecting, .directLaunchRequested, .directLaunchConnecting,
    .connectionAccepted, .connectionRejected, .restartingSession, .abortingConnection,
    .playerLaunched]

/-- The name of a phase in messages. -/
def name : Phase → String
  | .idle => "idle"
  | .discoverable => "discoverable"
  | .connecting => "connecting"
  | .directLaunchRequested => "directLaunchRequested"
  | .directLaunchConnecting => "directLaunchConnecting"
  | .connectionAccepted => "connectionAccepted"
  | .connectionRejected => "connectionRejected"
  | .restartingSession => "restartingSession"
  | .abortingConnection => "abortingConnection"
  | .playerLaunched => "playerLaunched"

/-- The name of a phase in texts for people. -/
def title : Phase → String
  | .idle => "Idle"
  | .discoverable => "Discoverable"
  | .connecting => "Connecting"
  | .directLaunchRequested => "DirectLaunchRequested"
  | .directLaunchConnecting => "DirectLaunchConnecting"
  | .connectionAccepted => "ConnectionAccepted"
  | .connectionRejected => "ConnectionRejected"
  | .restartingSession => "RestartingSession"
  | .abortingConnection => "AbortingConnection"
  | .playerLaunched => "PlayerLaunched"

/-- A pending peer is kept in these phases. -/
def holdsPendingPeer : Phase → Bool
  | .connecting | .directLaunchRequested | .directLaunchConnecting => true
  | _ => false

/-- No peer is engaged with the receiver. -/
def isUnengaged : Phase → Bool
  | .idle | .discoverable => true
  | _ => false

/-- The phase ends when discovery reports a restart. -/
def awaitsRestart : Phase → Bool
  | .restartingSession | .connectionRejected | .abortingConnection => true
  | _ => false

/-- Entering the phase forgets the peers that were accepted or asked to take over. -/
def forgetsPeers : Phase → Bool
  | .idle | .discoverable | .restartingSession | .connectionRejected => true
  | _ => false

/-- Without an engaged peer there is none to remember. -/
theorem forgetsPeers_of_isUnengaged {p : Phase} (h : p.isUnengaged = true) :
    p.forgetsPeers = true := by
  cases p <;> simp_all [isUnengaged, forgetsPeers]

theorem forgetsPeers_of_holdsPendingPeer {p : Phase} (h : p.holdsPendingPeer = true) :
    p.forgetsPeers = false := by
  cases p <;> simp_all [holdsPendingPeer, forgetsPeers]

def toJson (p : Phase) : Json := .string p.name

def ofJson? (bracesToo : Bool) (j : Json) : Option Phase :=
  j.choice? bracesToo all name

end Phase

end CastReceiver
