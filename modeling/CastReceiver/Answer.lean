import CastReceiver.Json.Basic
import CastReceiver.Phase
import CastReceiver.Text.Digits

/-!
# Answers

What a request comes to: it is acknowledged, perhaps with a remark, or refused for a reason that
has a code for machines and a message for people.
-/
namespace CastReceiver

/-- What there is to say about a request that was not refused. -/
inductive Remark where
  | alreadyEnabled
  | alreadyDisabled
  | noRequestPending (phase : Phase)
  | stopAlreadyReceived (phase : Phase)
  | supersededStop
  | noSessionToEnd
  deriving DecidableEq

def Remark.text : Remark → String
  | .alreadyEnabled => "Service already enabled"
  | .alreadyDisabled => "Service already disabled"
  | .noRequestPending phase => "No connection request pending (state: " ++ phase.title ++ ")"
  | .stopAlreadyReceived phase => "Stop request already received (state: " ++ phase.title ++ ")"
  | .supersededStop => "Stop report belongs to a superseded session"
  | .noSessionToEnd => "No session to end"

/-- The outcome of a request that was not refused. Without success it came too late and changed
nothing. -/
structure Ack where
  success : Bool
  remark : Option Remark := none
  deriving DecidableEq

namespace Ack

def done : Ack := { success := true }

def doneWith (remark : Remark) : Ack := { success := true, remark }

def stale (remark : Remark) : Ack := { success := false, remark }

def toJson (a : Ack) : Json :=
  .object (("success", .bool a.success) ::
    (a.remark.map fun r => ("message", Json.string r.text)).toList)

end Ack

/-- Why a request to the session is refused. -/
inductive SessionError where
  | invalidDecision (text : String)
  | invalidPlayerState (text : String)
  /-- The request makes sense, but not in the present phase. -/
  | policyViolation (text : String)
  /-- The peer named in the request is not the one that is connected. -/
  | identityMismatch (mac name : String)
  deriving DecidableEq

namespace SessionError

def code : SessionError → String
  | .invalidDecision _ => "invalid_decision"
  | .invalidPlayerState _ => "invalid_player_state"
  | .policyViolation _ => "policy_violation"
  | .identityMismatch .. => "invalid_mac_or_name"

def message : SessionError → String
  | .invalidDecision text =>
    "Invalid decision '" ++ text ++ "': expected \"Accept\" or \"Reject\""
  | .invalidPlayerState text => "Unknown player state '" ++ text ++ "'"
  | .policyViolation text => text
  | .identityMismatch mac name =>
    "Invalid MAC/name: " ++ mac ++ " / " ++ name ++ " does not match the connected peer"

/-- The service cannot be disabled now. -/
def playerRunning : SessionError :=
  .policyViolation "Cannot disable the service while the player is running"

/-- The connection cannot be stopped any more. -/
def playerLaunched : SessionError :=
  .policyViolation "Cannot stop the connection after the player has launched"

end SessionError

/-- Why the receiver cannot do what it was asked to. -/
inductive Failure where
  | session (error : SessionError)
  | invalidRequest (text : String)
  | configuration (text : String)
  | runtime (text : String)
  | internal (text : String)
  deriving DecidableEq

namespace Failure

def code : Failure → String
  | .session e => e.code
  | .invalidRequest _ => "invalid_request"
  | .configuration _ => "configuration_error"
  | .runtime _ => "runtime_error"
  | .internal _ => "internal_error"

def message : Failure → String
  | .session e => e.message
  | .invalidRequest text => "Invalid request: " ++ text
  | .configuration text => "Configuration error: " ++ text
  | .runtime text => "Runtime error: " ++ text
  | .internal text => "Internal error: " ++ text

/-- The status of the response that reports a failure. -/
def status : Failure → Nat
  | .session (.policyViolation _) => 409
  | .session _ | .invalidRequest _ => 400
  | .configuration _ => 503
  | .runtime _ | .internal _ => 500

def toJson (f : Failure) : Json :=
  .object [("error", .string f.code), ("message", .string f.message),
    ("status", .natural f.status)]

end Failure

end CastReceiver
