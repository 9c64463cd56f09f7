import CastReceiver.Machine.Discovery

/-!
# Requests of the operator and the player

Enabling and disabling the service, deciding about a peer, stopping its connection, and recording
the player. A request that is refused or comes too late changes nothing.
-/
namespace CastReceiver.Machine

abbrev Outcome := Except SessionError Ack

def enable (m : Machine) : Run Ack :=
  if m.gate.enabled then .done m (.doneWith .alreadyEnabled)
  else
    let m := { m with gate := { m.gate with enabled := true } }.announceEnabled true
    match m.power.takeResume with
    | (true, power) => .done { m with power }.deferResume .done
    | (false, _) =>
      match m.power.deferUntilWake with
      | (true, power) => .done { m with power } .done
      | (false, _) => m.resumeDiscovery.returning .done

def disable (m : Machine) : Run Outcome :=
  if !m.gate.enabled then .done m (.ok (.doneWith .alreadyDisabled))
  else if m.phase = .playerLaunched then .done m (.error .playerRunning)
  else
    let m := { m with gate := { m.gate with enabled := false } }
    m.suspendDiscovery.andThen fun m =>
      let m := (m.disarm .connectionAccept).disarm .radioConnect
      .done ((m.enter .idle).announceEnabled false) (.ok .done)

/-- The operator wants the service, or does not want it any more. -/
def setEnabled (m : Machine) (enabled : Bool) : Run Outcome :=
  if enabled then m.enable.map .ok else m.disable

/-- A decision about the pending peer. The phase changes before a command goes out, because
discovery may report back while it carries the command out. -/
def applyDecision (m : Machine) (d : Decision) : Run Ack :=
  let m := m.disarm .connectionAccept
  let pending := m.session.pending
  match m.phase, d with
  | .directLaunchConnecting, .accept =>
    let m := (m.adopt pending).enter .connectionAccepted
    match pending.bind PendingPeer.launch? with
    | some launch => (m.command (.switchLaunchRequestContext launch)).returning .done
    | none => .done m .done
  | .directLaunchConnecting, .reject =>
    ((m.enter .connectionRejected).silencePlayer.restartSessionOf pending).returning .done
  | .connecting, .accept =>
    (((m.adopt pending).enter .connectionAccepted).command
      (.acceptClientConnection .accept)).returning .done
  | .connecting, .reject =>
    ((m.enter .connectionRejected).command (.acceptClientConnection .reject)).returning .done
  | phase, _ => .done m (.stale (.noRequestPending phase))

/-- A decision as it is written. -/
def decide (m : Machine) (text : String) : Run Outcome :=
  match Decision.parse? text with
  | none => .done m (.error (.invalidDecision text))
  | some d => (m.applyDecision d).map .ok

/-- The connection of a peer is to end before it launches. -/
def stopConnection (m : Machine) (mac name : String) : Run Outcome :=
  match m.phase with
  | .playerLaunched => .done m (.error .playerLaunched)
  | .connectionAccepted =>
    if m.session.connected.any fun p => p.matchesIdentity mac name then
      let restarted := (m.session.preempting.map Peer.mac).getD mac
      ((m.enter .abortingConnection).restartSession restarted).returning (.ok .done)
    else .done m (.error (.identityMismatch mac name))
  | phase => .done m (.ok (.stale (.stopAlreadyReceived phase)))

/-- The player stopped for a peer that no other has replaced. -/
def endSession (m : Machine) (mac name : String) (phase : Phase) (reason : StopReason) :
    Run Ack :=
  if phase.isUnengaged || phase = .restartingSession then .done m (.doneWith .noSessionToEnd)
  else
    let m := if reason.isFailure then m.notifyError ⟨mac, name⟩ reason else m
    let m := m.disarm .connectionAccept
    if m.gate.enabled then (m.restartSession mac).returning .done
    else .done (m.enter .idle) .done

/-- The player stopped. -/
def playerStopped (m : Machine) (mac : String) (reason : StopReason) : Run Ack :=
  if reason = .newConnection then
    ((m.setPlayer mac .stopped).command .flushCurrentSession).returning .done
  else if m.session.isSuperseded mac then .done m (.stale .supersededStop)
  else
    (m.setPlayer mac .stopped).endSession mac (m.session.nameFor mac) m.phase reason

/-- A report of the player. -/
def updatePlayer (m : Machine) (mac state : String) (reasonCode : Nat) : Run Outcome :=
  match PlayerState.parse? state with
  | none => .done m (.error (.invalidPlayerState state))
  | some .stopped => (m.playerStopped mac (.ofCode reasonCode)).map .ok
  | some state => .done (m.setPlayer mac state) (.ok .done)

/-- Discovery of other protocols is passed on. -/
def setBackendDiscovery (m : Machine) (enabled : Bool) : Run Ack :=
  (m.command (.setBackendDiscovery enabled)).returning .done

end CastReceiver.Machine
