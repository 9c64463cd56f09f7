import CastReceiver.Machine.Run

/-!
# Starting and stopping discovery

Discovery runs when the operator wants it and neither the power mode nor the radio speaks against
it. The phase changes before the command goes out.
-/
namespace CastReceiver.Machine

/-- Starts discovery if it is wanted and nothing suppresses it. -/
def resumeDiscovery (m : Machine) : Run Unit :=
  if m.radio.connecting then
    .done (if m.watchdogs.isArmed .radioConnect then m else m.armRadioConnect) ()
  else
    match m.gate.activate? m.power.isSuspended with
    | none => .done m ()
    | some gate =>
      let m := { m with gate }
      (if m.phase = .idle then m.enter .discoverable else m).command .restartDiscovery

/-- Stops discovery if it is running. -/
def suspendDiscovery (m : Machine) : Run Unit :=
  match m.gate.deactivate? with
  | none => .done m ()
  | some gate =>
    let m := { m with gate }
    (if m.phase = .discoverable then m.enter .idle else m).command .stopDiscovery

/-- Ends the session and asks for a restart of discovery for a peer. While discovery is suppressed
there is none: the session ends, and what ends the suppression starts discovery. -/
def restartSession (m : Machine) (mac : String) : Run Unit :=
  if m.power.isSuspended || m.radio.connecting then .done (m.enter .idle) ()
  else (m.enter .restartingSession).command (.restartSessionDiscovery mac)

/-- Ends a session that was about to begin with a peer. -/
def restartSessionOf (m : Machine) (pending : Option PendingPeer) : Run Unit :=
  match pending with
  | some p => m.restartSession p.mac
  | none => .done (m.enter .restartingSession) ()

/-- A machine that has looked its name up once more. -/
def looked (m : Machine) : Machine :=
  { m with lookups := m.lookups + 1 }.record .nameLookup

def withFriendlyName (m : Machine) (name : String) : Machine :=
  { m with session := { m.session with friendlyName := some name } }

/-- Looks the name of the device up, and passes it on when it is known. The result says whether
there is nothing more to look up. -/
def refreshFriendlyName (m : Machine) : Run Bool :=
  match m.nameSource with
  | none => .done m true
  | some source =>
    match source m.lookups with
    | none => .done m.looked false
    | some name =>
      ((m.looked.withFriendlyName name).command (.setFriendlyName name)).returning true

theorem refreshFriendlyName_of_some {m : Machine} {source : NameSource}
    (hsource : m.nameSource = some source) :
    m.refreshFriendlyName = match source m.lookups with
      | none => .done m.looked false
      | some name =>
        ((m.looked.withFriendlyName name).command (.setFriendlyName name)).returning true := by
  unfold refreshFriendlyName
  split
  case h_1 hnone => cases hnone.symm.trans hsource
  case h_2 source' hsource' =>
    obtain rfl : source' = source := Option.some.inj (hsource'.symm.trans hsource)
    rfl

theorem refreshFriendlyName_of_none {m : Machine} (hsource : m.nameSource = none) :
    m.refreshFriendlyName = .done m true := by
  unfold refreshFriendlyName
  split
  case h_1 => rfl
  case h_2 hsource' => cases hsource'.symm.trans hsource

end CastReceiver.Machine
