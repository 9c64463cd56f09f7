import CastReceiver.Peer
import CastReceiver.Power
import CastReceiver.Radio

/-!
# Reports

What discovery, the power manager and the radio tell the receiver. A report is a tagged record; it
is written as an object that starts with its type.
-/
namespace CastReceiver

inductive Report where
  | connectionRequest (mac name : String)
  /-- `connectionReported` says whether the peer has been reported as asking to connect. -/
  | launchRequest (launch : Launch) (connectionReported : Bool)
  | discoveryRestarted
  | powerModeChanged (old new : PowerMode)
  | networkStandbyChanged (enabled : Bool)
  | wifiStateChanged (state : WifiState)
  deriving DecidableEq

namespace Report

/-- The types of reports, in the order in which they are numbered. -/
def kinds : List String :=
  ["connectionRequest", "launchRequest", "discoveryRestarted", "powerModeChanged",
    "networkStandbyChanged", "wifiStateChanged"]

def kind : Report → String
  | .connectionRequest .. => "connectionRequest"
  | .launchRequest .. => "launchRequest"
  | .discoveryRestarted => "discoveryRestarted"
  | .powerModeChanged .. => "powerModeChanged"
  | .networkStandbyChanged .. => "networkStandbyChanged"
  | .wifiStateChanged .. => "wifiStateChanged"

def members : Report → Json.Members
  | .connectionRequest mac name => [("mac", .string mac), ("name", .string name)]
  | .launchRequest l reported => l.members ++ [("connectionReported", .bool reported)]
  | .discoveryRestarted => []
  | .powerModeChanged old new => [("old", old.toJson), ("new", new.toJson)]
  | .networkStandbyChanged enabled => [("enabled", .bool enabled)]
  | .wifiStateChanged state => [("state", state.toJson)]

def toJson (r : Report) : Json :=
  .object ((Json.tagName, .string r.kind) :: r.members)

/-- A launch request can only be written as an object, where it mixes its fields with those of the
launch. -/
def launchOfBody? : Json.Body → Option Report
  | .members found => do
    let launch ← Launch.ofMembers? found
    match Json.valuesOf "connectionReported" found with
    | [] => some (.launchRequest launch false)
    | [.bool reported] => some (.launchRequest launch reported)
    | _ => none
  | .elements _ => none

/-- The report of a type that the body of a tagged record stands for. -/
def ofBody? (kind : String) (body : Json.Body) : Option Report :=
  match kind with
  | "connectionRequest" =>
    match body.required? ["mac", "name"] with
    | some [.string mac, .string name] => some (.connectionRequest mac name)
    | _ => none
  | "launchRequest" => launchOfBody? body
  | "discoveryRestarted" => (body.required? []).map fun _ => .discoveryRestarted
  | "powerModeChanged" =>
    match body.required? ["old", "new"] with
    | some [old, new] => do
      some (.powerModeChanged (← PowerMode.ofJson? true old) (← PowerMode.ofJson? true new))
    | _ => none
  | "networkStandbyChanged" =>
    match body.required? ["enabled"] with
    | some [.bool enabled] => some (.networkStandbyChanged enabled)
    | _ => none
  | "wifiStateChanged" =>
    match body.required? ["state"] with
    | some [state] => (WifiState.ofJson? true state).map .wifiStateChanged
    | _ => none
  | _ => none

/-- The report that a value stands for. -/
def ofJson? (numbered : Bool) (j : Json) : Option Report := do
  let (kind, body) ← j.taggedOf? kinds numbered
  ofBody? kind body

/-- A report from the front of a text. -/
def read (s : List Char) : Except Json.Fault (Report × List Char) := do
  let ((kind, body), s) ← Json.tagged kinds s
  match ofBody? kind body with
  | some r => .ok (r, s)
  | none => .error .unfit

/-- The report that a whole text stands for. -/
def parse (text : String) : Except Json.Fault Report :=
  Json.whole read text

end Report

end CastReceiver
