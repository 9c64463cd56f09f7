import CastReceiver.Json.Choice
import CastReceiver.Text.LetterCase

/-!
# What the player reports

The state of the playback engine, and why it stopped.
-/
namespace CastReceiver

inductive PlayerState where
  | idle
  | initiated
  | inProgress
  | playing
  | stopped
  deriving DecidableEq, Inhabited

namespace PlayerState

def all : List PlayerState := [.idle, .initiated, .inProgress, .playing, .stopped]

def name : PlayerState → String
  | .idle => "idle"
  | .initiated => "initiated"
  | .inProgress => "inProgress"
  | .playing => "playing"
  | .stopped => "stopped"

def title : PlayerState → String
  | .idle => "Idle"
  | .initiated => "Initiated"
  | .inProgress => "InProgress"
  | .playing => "Playing"
  | .stopped => "Stopped"

/-- Reports may write a state in any case, with underscores and hyphens anywhere. -/
def parse? (s : String) : Option PlayerState :=
  let letters := Text.lower (s.toList.filter fun c => c ≠ '_' && c ≠ '-')
  all.find? fun p => Text.lower p.name.toList = letters

def toJson (p : PlayerState) : Json := .string p.name

def ofJson? (bracesToo : Bool) (j : Json) : Option PlayerState :=
  j.choice? bracesToo all name

end PlayerState

/-- Why the player stopped; reports carry a number. -/
inductive StopReason where
  | success
  | appRequested
  | peerRequested
  /-- A new connection takes the receiver over. -/
  | newConnection
  | internalFailure
  | timeout
  | unknown (code : Nat)
  deriving DecidableEq

namespace StopReason

def ofCode : Nat → StopReason
  | 0 => .success
  | 1 => .appRequested
  | 2 => .peerRequested
  | 3 => .newConnection
  | 4 => .internalFailure
  | 5 => .timeout
  | code => .unknown code

def code : StopReason → Nat
  | .success => 0
  | .appRequested => 1
  | .peerRequested => 2
  | .newConnection => 3
  | .internalFailure => 4
  | .timeout => 5
  | .unknown code => code

theorem code_ofCode (n : Nat) : (ofCode n).code = n := by
  unfold ofCode
  split <;> rfl

/-- The reason is reported to listeners as a connection error. -/
def isFailure : StopReason → Bool
  | .internalFailure | .timeout | .unknown _ => true
  | _ => false

def title : StopReason → String
  | .success => "Success"
  | .appRequested => "AppRequested"
  | .peerRequested => "PeerRequested"
  | .newConnection => "NewConnection"
  | .internalFailure => "InternalFailure"
  | .timeout => "Timeout"
  | .unknown code => "Unknown(" ++ toString code ++ ")"

end StopReason

end CastReceiver
