import CastReceiver.Json.Record

/-!
# Settings

How the receiver is configured. Every setting has a default; those that a session, a clock or a
channel cannot work with are refused.
-/
namespace CastReceiver

/-- Timing and policy of a session, in milliseconds. -/
structure SessionSettings where
  /-- How long a connection request may wait for a decision. -/
  connectionAcceptTimeout : Nat := 40000
  /-- How long an attempt to connect to a network may suppress discovery. -/
  radioConnectTimeout : Nat := 30000
  friendlyNameRetryInterval : Nat := 5000
  /-- Connections and launches are accepted without asking. -/
  autoAccept : Bool := false
  /-- The service is enabled as soon as it starts. -/
  enableOnStart : Bool := false
  deriving DecidableEq

structure Settings where
  /-- The port to serve on; zero lets the receiver choose one. -/
  preferredPort : Nat := 49500
  connectionAcceptTimeout : Nat := 40000
  radioConnectTimeout : Nat := 30000
  friendlyNameRetryInterval : Nat := 5000
  autoAccept : Bool := false
  enableOnStart : Bool := true
  /-- How many events the channel keeps for a slow subscriber. -/
  eventChannelCapacity : Nat := 100
  deriving DecidableEq, Inhabited

namespace Settings

def session (s : Settings) : SessionSettings where
  connectionAcceptTimeout := s.connectionAcceptTimeout
  radioConnectTimeout := s.radioConnectTimeout
  friendlyNameRetryInterval := s.friendlyNameRetryInterval
  autoAccept := s.autoAccept
  enableOnStart := s.enableOnStart

/-- Why settings are refused. -/
inductive Objection where
  | connectionAcceptTimeout
  | radioConnectTimeout
  | friendlyNameRetryInterval
  | eventChannelCapacity
  deriving DecidableEq

def Objection.message : Objection → String
  | .connectionAcceptTimeout => "connection_accept_timeout_ms must be >= 1"
  | .radioConnectTimeout => "radio_connect_timeout_ms must be >= 1"
  | .friendlyNameRetryInterval =>
    "friendly_name_retry_interval_ms must be >= 1 (interval panics on 0)"
  | .eventChannelCapacity =>
    "event_channel_capacity must be >= 1 (broadcast::channel panics on 0)"

/-- The first objection to settings. -/
def objection? (s : Settings) : Option Objection :=
  if s.connectionAcceptTimeout = 0 then some .connectionAcceptTimeout
  else if s.radioConnectTimeout = 0 then some .radioConnectTimeout
  else if s.friendlyNameRetryInterval = 0 then some .friendlyNameRetryInterval
  else if s.eventChannelCapacity = 0 then some .eventChannelCapacity
  else none

def isValid (s : Settings) : Bool :=
  s.objection?.isNone

/-! ## The record -/

def spec : List Json.Field :=
  [⟨"preferred_port", Json.isNatural limit16, false⟩,
    ⟨"connection_accept_timeout_ms", Json.isNatural limit64, false⟩,
    ⟨"radio_connect_timeout_ms", Json.isNatural limit64, false⟩,
    ⟨"friendly_name_retry_interval_ms", Json.isNatural limit64, false⟩,
    ⟨"auto_accept", Json.isFlag, false⟩,
    ⟨"enable_on_start", Json.isFlag, false⟩,
    ⟨"event_channel_capacity", Json.isNatural limit64, false⟩]

/-- Settings from the fields that are given; the others have their defaults. -/
def ofMembers (found : Json.Members) : Settings :=
  let d : Settings := {}
  { preferredPort := Json.naturalOr d.preferredPort found "preferred_port"
    connectionAcceptTimeout :=
      Json.naturalOr d.connectionAcceptTimeout found "connection_accept_timeout_ms"
    radioConnectTimeout := Json.naturalOr d.radioConnectTimeout found "radio_connect_timeout_ms"
    friendlyNameRetryInterval :=
      Json.naturalOr d.friendlyNameRetryInterval found "friendly_name_retry_interval_ms"
    autoAccept := Json.flagOr d.autoAccept found "auto_accept"
    enableOnStart := Json.flagOr d.enableOnStart found "enable_on_start"
    eventChannelCapacity := Json.naturalOr d.eventChannelCapacity found "event_channel_capacity" }

def parse (text : String) : Except Json.Fault Settings :=
  (Json.readFields spec text).map ofMembers

def ofJson? (j : Json) : Option Settings :=
  (Json.fieldsOf? spec j).map ofMembers

def toJson (s : Settings) : Json :=
  .object
    [("preferred_port", .natural s.preferredPort),
      ("connection_accept_timeout_ms", .natural s.connectionAcceptTimeout),
      ("radio_connect_timeout_ms", .natural s.radioConnectTimeout),
      ("friendly_name_retry_interval_ms", .natural s.friendlyNameRetryInterval),
      ("auto_accept", .bool s.autoAccept),
      ("enable_on_start", .bool s.enableOnStart),
      ("event_channel_capacity", .natural s.eventChannelCapacity)]

end Settings

end CastReceiver
