import CastReceiver.Event.Report
import CastReceiver.Machine.Requests

/-!
# Reports of discovery, power and radio

What the machine does when a peer asks to connect or launches, when discovery has restarted, and
when the power mode or the wireless interface changes.
-/
namespace CastReceiver.Machine

/-- In automatic mode a peer that asks to connect while another plays ends that session. -/
def endPreempted (m : Machine) : Run Unit :=
  if m.session.preempting.isSome then
    let old := m.session.active
    let m := (m.setPreempting none).setActive none
    match old with
    | some p => (m.notifyError p .newConnection).command .flushCurrentSession
    | none => .done m ()
  else .done m ()

/-- What becomes of a request: in automatic mode it is accepted, else listeners are asked. -/
def considerRequest (m : Machine) (mac name : String) : Run Unit :=
  if m.settings.autoAccept then
    m.endPreempted.andThen fun m => (m.applyDecision .accept).returning ()
  else .done (m.armConnectionAccept.notifyRequest ⟨mac, name⟩) ()

/-- A peer asks to connect. -/
def connectionRequested (m : Machine) (mac name : String) : Run Unit :=
  if !m.gate.enabled then m.command (.acceptClientConnection .reject)
  else
    let source := m.phase
    let cached := m.session.pending
    let m := if source = .playerLaunched then m.setPreempting (some ⟨mac, name⟩) else m
    let asked : PendingPeer := { mac, name }
    let m :=
      if source = .directLaunchRequested then
        m.enter .directLaunchConnecting
          (some ((cached.filter fun p => sameMac p.mac mac).getD asked))
      else m.enter .connecting (some asked)
    m.considerRequest mac name

/-- A peer launches without having asked to connect. -/
def directLaunch (m : Machine) (l : Launch) : Run Unit :=
  if !m.gate.enabled then m.command (.acceptClientConnection .reject)
  else
    let m := if m.phase = .playerLaunched then m.setPreempting (some l.peer) else m
    (m.enter .directLaunchRequested (some (.ofLaunch l))).connectionRequested
      l.sourceMac l.sourceName

/-- A peer that has been accepted launches. -/
def acceptedLaunch (m : Machine) (l : Launch) : Run Unit :=
  if m.phase = .connectionAccepted &&
      m.session.connected.any (fun p => sameMac p.mac l.sourceMac) then
    let m := ((m.setActive (some l.peer)).setPreempting none).enter .playerLaunched
    if m.settings.autoAccept then m.command (.beginPlayback l)
    else .done (m.notifyLaunch l) ()
  else .done m ()

def launchRequested (m : Machine) (l : Launch) (connectionReported : Bool) : Run Unit :=
  if connectionReported then m.acceptedLaunch l else m.directLaunch l

/-- Discovery has restarted. -/
def discoveryRestarted (m : Machine) : Run Unit :=
  .done
    (if m.phase.awaitsRestart then m.enter (if m.gate.active then .discoverable else .idle)
      else m) ()

def wifiChanged (m : Machine) (state : WifiState) : Run Unit :=
  match m.radio.change state with
  | (.suppress, radio) =>
    { m with radio }.suspendDiscovery.andThen fun m => .done m.armRadioConnect ()
  | (.resume, radio) => ({ m with radio }.disarm .radioConnect).resumeDiscovery
  | (.ignore, radio) => .done { m with radio } ()

/-- The device goes to sleep: a negotiation ends, a stream that is rendered does not. -/
def fallAsleep (m : Machine) : Machine :=
  if !m.phase.isUnengaged && m.phase ≠ .playerLaunched then m.enter .idle else m

def powerModeChanged (m : Machine) (mode : PowerMode) : Run Unit :=
  match m.power.change mode m.gate.enabled with
  | (.resume, power) => .done { m with power }.deferResume ()
  | (.suspend stopDiscovery, power) =>
    let m := ({ m with power }.disarm .connectionAccept).disarm .radioConnect
    (if stopDiscovery then m.suspendDiscovery else .done m ()).andThen fun m =>
      .done m.fallAsleep ()
  | (.ignore, power) => .done { m with power } ()

/-- Counts from the next change of the power mode on, but in light sleep at once. -/
def networkStandbyChanged (m : Machine) (enabled : Bool) : Run Unit :=
  .done { m with power := { m.power with networkStandby := enabled } } ()

/-- What a report leads to. -/
def receive (m : Machine) : Report → Run Unit
  | .connectionRequest mac name => m.connectionRequested mac name
  | .launchRequest l reported => m.launchRequested l reported
  | .discoveryRestarted => m.discoveryRestarted
  | .powerModeChanged _ new => m.powerModeChanged new
  | .networkStandbyChanged enabled => m.networkStandbyChanged enabled
  | .wifiStateChanged state => m.wifiChanged state

end CastReceiver.Machine
