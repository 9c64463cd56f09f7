import CastReceiver.Json.Choice

/-!
# Power

The power mode of the device decides whether discovery may run. What is remembered across a sleep
is whether discovery is to run again on waking up. The tracker only records and decides; the
session carries the reaction out.
-/
namespace CastReceiver

inductive PowerMode where
  | on
  | standby
  | lightSleep
  | deepSleep
  | unknown
  deriving DecidableEq, Inhabited

namespace PowerMode

def all : List PowerMode := [.on, .standby, .lightSleep, .deepSleep, .unknown]

def name : PowerMode → String
  | .on => "on"
  | .standby => "standby"
  | .lightSleep => "standbyLightSleep"
  | .deepSleep => "standbyDeepSleep"
  | .unknown => "unknown"

def toJson (m : PowerMode) : Json := .string m.name

def ofJson? (bracesToo : Bool) (j : Json) : Option PowerMode :=
  j.choice? bracesToo all name

end PowerMode

/-- The reaction to a change of the power mode. -/
inductive PowerAction where
  | ignore
  /-- The device woke up, and discovery is to run again. -/
  | resume
  /-- The device goes to sleep. -/
  | suspend (stopDiscovery : Bool)
  deriving DecidableEq

/-- The last known power mode, and what is carried across a sleep. -/
structure Power where
  mode : PowerMode := .unknown
  /-- The device stays reachable in light sleep. -/
  networkStandby : Bool := false
  /-- Discovery resumes on waking up. -/
  resumesOnWake : Bool := false
  deriving DecidableEq, Inhabited

namespace Power

/-- A mode forbids discovery. -/
def suspends (p : Power) : PowerMode → Bool
  | .deepSleep => true
  | .lightSleep => !p.networkStandby
  | _ => false

/-- The present mode forbids discovery. -/
def isSuspended (p : Power) : Bool :=
  p.suspends p.mode

/-- A change to a new mode while the service is `enabled` or not. A mode that forbids discovery
asks for a reaction only after one that did not. -/
def change (p : Power) (mode : PowerMode) (enabled : Bool) : PowerAction × Power :=
  if mode = .on then
    if p.resumesOnWake && enabled then
      (.resume, { p with mode, resumesOnWake := false })
    else (.ignore, { p with mode })
  else if p.suspends mode && !p.isSuspended then
    (.suspend enabled, { p with mode, resumesOnWake := p.resumesOnWake || enabled })
  else (.ignore, { p with mode })

/-- Uses the memory of a sleep up, if there is one and the device is awake. -/
def takeResume (p : Power) : Bool × Power :=
  if p.resumesOnWake && !p.isSuspended then (true, { p with resumesOnWake := false })
  else (false, p)

/-- The service was enabled: in a sleep, discovery is to start on waking up. -/
def deferUntilWake (p : Power) : Bool × Power :=
  if p.isSuspended then (true, { p with resumesOnWake := true }) else (false, p)

end Power

end CastReceiver
