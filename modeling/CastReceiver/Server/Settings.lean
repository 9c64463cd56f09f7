import CastReceiver.NameSource
import CastReceiver.Settings
import CastReceiver.Text.LetterCase
import CastReceiver.Yaml.Node

/-!
# Settings of a server

What the operator of a server may set in a file, before the environment overrides some of it.
Every setting has a default; settings that are not known are skipped.
-/
namespace CastReceiver

structure ServerSettings where
  /-- The port to serve on; zero lets the server choose one. -/
  bindPort : Nat := 49500
  autoAccept : Bool := false
  enableOnStart : Bool := true
  /-- The name to advertise; without one, that of the host is taken. -/
  friendlyName : Option String := none
  connectionAcceptTimeout : Nat := 40000
  radioConnectTimeout : Nat := 30000
  friendlyNameRetryInterval : Nat := 5000
  deriving DecidableEq, Inhabited

namespace ServerSettings

open Yaml (Node Scalar)

/-- The settings of the receiver. -/
def toSettings (s : ServerSettings) : Settings where
  preferredPort := s.bindPort
  connectionAcceptTimeout := s.connectionAcceptTimeout
  radioConnectTimeout := s.radioConnectTimeout
  friendlyNameRetryInterval := s.friendlyNameRetryInterval
  autoAccept := s.autoAccept
  enableOnStart := s.enableOnStart

/-! ## The file -/

/-- One setting, by its name in a file. -/
def set? (s : ServerSettings) (name : String) (v : Scalar) : Option ServerSettings :=
  match name with
  | "bind_port" => (v.natural? limit16).map ({ s with bindPort := · })
  | "auto_accept" => v.flag?.map ({ s with autoAccept := · })
  | "enable_on_start" => v.flag?.map ({ s with enableOnStart := · })
  | "friendly_name" => v.optionalText?.map ({ s with friendlyName := · })
  | "connection_accept_timeout_ms" =>
    (v.natural? limit64).map ({ s with connectionAcceptTimeout := · })
  | "radio_connect_timeout_ms" => (v.natural? limit64).map ({ s with radioConnectTimeout := · })
  | "friendly_name_retry_interval_ms" =>
    (v.natural? limit64).map ({ s with friendlyNameRetryInterval := · })
  | _ => some s

def names : List String :=
  ["bind_port", "auto_accept", "enable_on_start", "friendly_name",
    "connection_accept_timeout_ms", "radio_connect_timeout_ms",
    "friendly_name_retry_interval_ms"]

/-- The settings of a mapping in the document with this root. A setting that is known is a scalar
and is given once; `given` are those that have been. -/
def ofMembers? (root : Node) (s : ServerSettings) (given : List String) :
    List (Node × Node) → Option ServerSettings
  | [] => some s
  | (k, v) :: members => do
    let name := (← root.scalar? k).text
    if !names.contains name then ofMembers? root s given members
    else if given.contains name then none
    else ofMembers? root (← set? s name (← root.scalar? v)) (name :: given) members

/-- A document without content has no settings; any other has to be a mapping. -/
def ofDocument? : Option Node → Option ServerSettings
  | none => some {}
  | some (.scalar _ s) => if s.isEmpty then some {} else none
  | some (.mapping number members) => ofMembers? (.mapping number members) {} [] members
  | some _ => none

/-- The settings in the text of a file. -/
def parse? (text : String) : Option ServerSettings :=
  (Yaml.document? text).bind ofDocument?

/-! ## The environment -/

/-- The values of the variables that are set. -/
abbrev Environment := String → Option String

/-- The words for truth values, in any case and with blanks around them. -/
def flagWord? (s : String) : Option Bool :=
  match String.ofList (Text.lower (Text.trim s.toList)) with
  | "1" | "true" | "yes" | "on" => some true
  | "0" | "false" | "no" | "off" => some false
  | _ => none

/-- A variable overrides a setting if its value can be used. -/
def override (s : ServerSettings) (e : Environment) : ServerSettings where
  bindPort := ((e "CASTGATE_BIND_PORT").bind fun v => Text.natural limit16 v.toList).getD s.bindPort
  autoAccept := ((e "CASTGATE_AUTO_ACCEPT").bind flagWord?).getD s.autoAccept
  enableOnStart := s.enableOnStart
  friendlyName := ((e "CASTGATE_FRIENDLY_NAME").bind configuredName?).or s.friendlyName
  connectionAcceptTimeout :=
    ((e "CASTGATE_CONNECTION_ACCEPT_TIMEOUT_MS").bind fun v =>
      Text.natural limit64 v.toList).getD s.connectionAcceptTimeout
  radioConnectTimeout := s.radioConnectTimeout
  friendlyNameRetryInterval := s.friendlyNameRetryInterval

/-! ## Loading -/

/-- What there is of a file with settings. -/
inductive File where
  /-- No file has been named. -/
  | unnamed
  /-- The file cannot be read. -/
  | unreadable
  | content (text : String)
  deriving DecidableEq

/-- Why settings cannot be loaded. -/
inductive LoadFault where
  | unreadable
  | malformed
  deriving DecidableEq

def LoadFault.message : LoadFault → String
  | .unreadable => "Failed to read config file"
  | .malformed => "Failed to parse config file"

/-- The settings of a file, if one has been named. -/
def ofFile : File → Except LoadFault ServerSettings
  | .unnamed => .ok {}
  | .unreadable => .error .unreadable
  | .content text =>
    match parse? text with
    | some s => .ok s
    | none => .error .malformed

/-- The settings of a file, as far as the environment does not override them. -/
def load (f : File) (e : Environment) : Except LoadFault ServerSettings :=
  (ofFile f).map (·.override e)

end ServerSettings

end CastReceiver
