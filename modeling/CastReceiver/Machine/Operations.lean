import CastReceiver.Machine.Reports

/-!
# Operations

Starting and shutting the machine down, alarms that go off, and every request that can be made of
a machine, with its reply.
-/
namespace CastReceiver

namespace Machine

/-- Looks the name of the device up, again and again until it is known, and enables the service if
the settings say so. -/
def start (m : Machine) : Run Unit :=
  m.refreshFriendlyName.bind fun m known =>
    let m := if known then m else m.armFriendlyNameRetry
    if m.settings.enableOnStart then (m.setEnabled true).returning () else .done m ()

/-- Everything but the settings and the journal is as in a new machine. -/
def reset (m : Machine) : Machine :=
  { m with gate := {}, power := {}, radio := {}, session := {} }

/-- Cancels every timer, stops discovery and forgets everything. -/
def shutdown (m : Machine) : Run Unit :=
  let m := m.disarmAll
  match m.gate.deactivate? with
  | none => .done m.reset ()
  | some gate => ({ m with gate }.command .stopDiscovery).andThen fun m => .done m.reset ()

/-! ## Alarms -/

/-- Nobody decided about a peer in time. -/
def connectionAcceptExpired (m : Machine) (id : Nat) : Run Unit :=
  match m.claim .connectionAccept id with
  | (false, m) => .done m ()
  | (true, m) =>
    let pending := m.session.pending
    if m.phase = .connecting || m.phase = .directLaunchConnecting then
      let m := match pending with
        | some p => m.notifyError p.peer .timeout
        | none => m
      m.silencePlayer.restartSessionOf pending
    else .done m ()

/-- An attempt to connect to a network was not resolved in time. -/
def radioConnectExpired (m : Machine) (id : Nat) : Run Unit :=
  match m.claim .radioConnect id with
  | (false, m) => .done m ()
  | (true, m) =>
    match m.radio.timeOut with
    | (.resume, radio) => { m with radio }.resumeDiscovery
    | (_, radio) => .done { m with radio } ()

/-- The alarm does not go off again. -/
def finishAlarm (m : Machine) (id : Nat) : Machine :=
  m.withTimetable (m.watchdogs.timetable.remove id)

/-- The name of the device is looked up once more. The result says whether this was the last time:
because the name is known now, or because the alarm is not current any more. -/
def lookUpAgain (m : Machine) (id : Nat) : Run Bool :=
  if m.watchdogs.isCurrent .friendlyNameRetry id then
    m.refreshFriendlyName.bind fun m known =>
      .done (if known then (m.claim .friendlyNameRetry id).2 else m) known
  else .done m true

/-- The alarm goes off again after a look-up, unless it was the last one. -/
def retryFriendlyName (m : Machine) (id : Nat) : Run Unit :=
  (m.lookUpAgain id).bind fun m ceases => .done (if ceases then m.finishAlarm id else m) ()

theorem retryFriendlyName_eq (m : Machine) (id : Nat) :
    m.retryFriendlyName id =
      if m.watchdogs.isCurrent .friendlyNameRetry id then
        m.refreshFriendlyName.bind fun m known =>
          .done (if known then (m.claim .friendlyNameRetry id).2.finishAlarm id else m) ()
      else .done (m.finishAlarm id) () := by
  rw [retryFriendlyName, lookUpAgain]
  split
  · rw [Run.bind_assoc]
    congr 1
    funext m known
    cases known <;> rfl
  · rfl

/-- A watchdog goes off. It does nothing when it has been cancelled or replaced. -/
def expire (m : Machine) (kind : Timer.WatchdogKind) (id : Nat) : Run Unit :=
  match kind with
  | .connectionAccept => m.connectionAcceptExpired id
  | .radioConnect => m.radioConnectExpired id
  | .friendlyNameRetry => m.retryFriendlyName id

/-- An alarm goes off. -/
def ring (m : Machine) (a : Timer.Alarm Task) : Run Unit :=
  match a.task with
  | .resumeDiscovery => m.resumeDiscovery
  | .watchdog kind => m.expire kind a.id

end Machine

/-- A request that can be made of a machine. -/
inductive Call where
  | start
  | shutdown
  | setEnabled (enabled : Bool)
  | isEnabled
  | phase
  | decide (decision : String)
  | stop (mac name : String)
  | player (mac state : String) (reasonCode : Nat)
  | backendDiscovery (enabled : Bool)
  | report (r : Report)
  deriving DecidableEq

def Reply.ofOutcome : Machine.Outcome → Reply
  | .ok a => .ack a
  | .error e => .refused e

/-- What a machine does about a request. -/
def Machine.perform (m : Machine) : Call → Run Reply
  | .start => m.start.returning .nothing
  | .shutdown => m.shutdown.returning .nothing
  | .setEnabled enabled => (m.setEnabled enabled).map .ofOutcome
  | .isEnabled => .done m (.flag m.gate.enabled)
  | .phase => .done m (.phase m.phase)
  | .decide decision => (m.decide decision).map .ofOutcome
  | .stop mac name => (m.stopConnection mac name).map .ofOutcome
  | .player mac state code => (m.updatePlayer mac state code).map .ofOutcome
  | .backendDiscovery enabled => (m.setBackendDiscovery enabled).map .ack
  | .report r => (m.receive r).returning .nothing

end CastReceiver
