import CastReceiver.Json.Choice

/-!
# Radio

While the wireless interface connects to a network, discovery is suppressed so that the two do not
fight over the radio. Suppression ends when the attempt is resolved or takes too long.
-/
namespace CastReceiver

inductive WifiState where
  | unknown
  | disconnected
  | connecting
  | connected
  | failed
  deriving DecidableEq, Inhabited

namespace WifiState

def all : List WifiState := [.unknown, .disconnected, .connecting, .connected, .failed]

def name : WifiState → String
  | .unknown => "unknown"
  | .disconnected => "disconnected"
  | .connecting => "connecting"
  | .connected => "connected"
  | .failed => "failed"

def toJson (s : WifiState) : Json := .string s.name

def ofJson? (bracesToo : Bool) (j : Json) : Option WifiState :=
  j.choice? bracesToo all name

end WifiState

/-- The reaction to a change of the radio. -/
inductive RadioAction where
  | ignore
  /-- Discovery stops while the attempt lasts. -/
  | suppress
  /-- The attempt is over, and discovery may run again. -/
  | resume
  deriving DecidableEq

/-- The last known state of the wireless interface. -/
structure Radio where
  state : WifiState := .unknown
  /-- An attempt to connect began and is not resolved. -/
  connecting : Bool := false
  deriving DecidableEq, Inhabited

namespace Radio

def resolve (r : Radio) : RadioAction × Radio :=
  (if r.connecting then .resume else .ignore, { r with connecting := false })

/-- A report of the state of the wireless interface. -/
def change (r : Radio) (state : WifiState) : RadioAction × Radio :=
  let r := { r with state }
  match state with
  | .connecting => (.suppress, { r with connecting := true })
  | .connected | .failed | .disconnected => r.resolve
  | .unknown => (.ignore, r)

/-- The attempt took too long. -/
def timeOut (r : Radio) : RadioAction × Radio :=
  r.resolve

end Radio

end CastReceiver
