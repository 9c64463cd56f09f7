import CastReceiver.Answer
import CastReceiver.Event.Basic
import CastReceiver.Gate
import CastReceiver.NameSource
import CastReceiver.Power
import CastReceiver.Radio
import CastReceiver.Settings
import CastReceiver.Timer.Watchdog

/-!
# The receiver's machine

The record of the one cast session, what decides whether discovery may run, the timers, and a
journal of everything that the machine has said. The functions here change a machine without
anybody else being involved; those that issue commands build on them.
-/
namespace CastReceiver

/-- The record of the session. -/
structure Session where
  phase : Phase := .idle
  id : Option SessionId := none
  /-- The peer that asks to connect. -/
  pending : Option PendingPeer := none
  /-- The peer whose connection was accepted or whose stream is rendered. -/
  active : Option Peer := none
  /-- The peer that asked to connect while the stream of another was rendered. -/
  preempting : Option Peer := none
  player : PlayerState := .idle
  friendlyName : Option String := none
  deriving DecidableEq

namespace Session

/-- A stop of the player for a peer concerns a session that another peer has replaced. -/
def isSuperseded (s : Session) (mac : String) : Bool :=
  s.pending.any (fun p => !sameMac p.mac mac) || s.preempting.any (fun p => !sameMac p.mac mac)

/-- The name of the peer with an address, as far as it is known. -/
def nameFor (s : Session) (mac : String) : String :=
  let known := s.active.toList ++ s.preempting.toList ++ (s.pending.map PendingPeer.peer).toList
  ((known.find? fun p => sameMac p.mac mac).map Peer.name).getD ""

/-- The peers that may launch or stop the connection. -/
def connected (s : Session) : List Peer :=
  s.active.toList ++ s.preempting.toList

end Session

/-- What is left to do when an alarm goes off. -/
inductive Task where
  /-- Discovery starts again, if nothing speaks against it by then. -/
  | resumeDiscovery
  | watchdog (kind : Timer.WatchdogKind)
  deriving DecidableEq

/-- What a request to the machine comes to. -/
inductive Reply where
  | nothing
  | flag (value : Bool)
  | phase (value : Phase)
  | ack (value : Ack)
  | refused (error : SessionError)
  /-- The request could not be understood. -/
  | unintelligible (fault : String)
  deriving DecidableEq

/-- What the journal keeps. -/
inductive Happening where
  | event (e : Event)
  /-- The name of the device was looked up. -/
  | nameLookup
  /-- A request that was made while a command was being carried out. -/
  | nested (label : String) (reply : Reply)
  deriving DecidableEq

structure Entry where
  time : Nat
  happening : Happening
  deriving DecidableEq

structure Machine where
  settings : SessionSettings := {}
  session : Session := {}
  gate : Gate := {}
  power : Power := {}
  radio : Radio := {}
  watchdogs : Timer.Watchdogs Task := {}
  /-- How many names have been given to attempts to cast. -/
  attempts : Nat := 0
  /-- Without a source the name of the device is nobody's business. -/
  nameSource : Option NameSource := none
  lookups : Nat := 0
  journal : List Entry := []

/-- The name of the n-th attempt to cast. -/
def SessionId.nth (n : Nat) : SessionId := ⟨"session-" ++ Text.decimal n⟩

namespace Machine

def now (m : Machine) : Nat := m.watchdogs.timetable.now

def phase (m : Machine) : Phase := m.session.phase

/-! ## The journal -/

def record (m : Machine) (h : Happening) : Machine :=
  { m with journal := m.journal ++ [⟨m.now, h⟩] }

def emit (m : Machine) (e : Event) : Machine :=
  m.record (.event e)

def notifyRequest (m : Machine) (p : Peer) : Machine :=
  m.emit (.notification (.connectionRequest p m.now))

def notifyError (m : Machine) (p : Peer) (reason : StopReason) : Machine :=
  m.emit (.notification (.connectionError p reason.code m.now))

def notifyLaunch (m : Machine) (l : Launch) : Machine :=
  m.emit (.notification (.launchRequest l m.now))

def announceEnabled (m : Machine) (enabled : Bool) : Machine :=
  m.emit (.state (.enabledChanged enabled m.now))

/-! ## The session -/

/-- The record after a phase is entered. A phase that holds a pending peer begins a new attempt,
but a direct launch keeps the name it got on arrival. -/
def entered (m : Machine) (target : Phase) (pending : Option PendingPeer) : Session :=
  let s := m.session
  { s with
    phase := target
    pending
    id :=
      if target.isUnengaged then none
      else if target.holdsPendingPeer && s.phase ≠ .directLaunchRequested then
        some (.nth m.attempts)
      else s.id
    active := if target.forgetsPeers then none else s.active
    preempting := if target.forgetsPeers then none else s.preempting }

/-- Enters a phase, and announces it unless nothing has changed. -/
def enter (m : Machine) (target : Phase) (pending : Option PendingPeer := none) : Machine :=
  let source := m.session.phase
  let session := m.entered target pending
  let begins := target.holdsPendingPeer && source ≠ .directLaunchRequested
  let m' := { m with session, attempts := if begins then m.attempts + 1 else m.attempts }
  if source = target && !target.holdsPendingPeer then m'
  else m'.emit (.state (.changed source target session.id m.now))

section Enter

variable (m : Machine) (target : Phase) (pending : Option PendingPeer)

@[simp] theorem enter_session : (m.enter target pending).session = m.entered target pending := by
  unfold enter
  dsimp only
  split <;> rfl

@[simp] theorem enter_phase : (m.enter target pending).phase = target := by
  simp [phase, entered]

@[simp] theorem enter_settings : (m.enter target pending).settings = m.settings := by
  unfold enter
  dsimp only
  split <;> rfl

@[simp] theorem enter_gate : (m.enter target pending).gate = m.gate := by
  unfold enter
  dsimp only
  split <;> rfl

@[simp] theorem enter_power : (m.enter target pending).power = m.power := by
  unfold enter
  dsimp only
  split <;> rfl

@[simp] theorem enter_radio : (m.enter target pending).radio = m.radio := by
  unfold enter
  dsimp only
  split <;> rfl

@[simp] theorem enter_watchdogs : (m.enter target pending).watchdogs = m.watchdogs := by
  unfold enter
  dsimp only
  split <;> rfl

end Enter

/-- Records a report of the player. -/
def setPlayer (m : Machine) (mac : String) (state : PlayerState) : Machine :=
  { m with session := { m.session with player := state } }.emit
    (.state (.playerStateChanged mac state m.now))

def silencePlayer (m : Machine) : Machine :=
  { m with session := { m.session with player := .idle } }

def setPreempting (m : Machine) (p : Option Peer) : Machine :=
  { m with session := { m.session with preempting := p } }

def setActive (m : Machine) (p : Option Peer) : Machine :=
  { m with session := { m.session with active := p } }

/-- The accepted peer becomes the active one, unless it preempts one that is still active. -/
def adopt (m : Machine) (pending : Option PendingPeer) : Machine :=
  match pending with
  | none => m
  | some p =>
    if m.session.preempting.isNone || m.session.active.isNone then m.setActive (some p.peer)
    else m

@[simp] theorem adopt_gate (m : Machine) (pending : Option PendingPeer) :
    (m.adopt pending).gate = m.gate := by
  unfold adopt
  split
  · rfl
  · split <;> rfl

/-! ## Timers -/

def arm (m : Machine) (kind : Timer.WatchdogKind) (delay : Nat) : Machine :=
  { m with watchdogs := (m.watchdogs.arm kind delay (.watchdog kind)).2 }

def armConnectionAccept (m : Machine) : Machine :=
  m.arm .connectionAccept m.settings.connectionAcceptTimeout

def armRadioConnect (m : Machine) : Machine :=
  m.arm .radioConnect m.settings.radioConnectTimeout

def armFriendlyNameRetry (m : Machine) : Machine :=
  { m with
    watchdogs := (m.watchdogs.armRepeating .friendlyNameRetry m.settings.friendlyNameRetryInterval
      (.watchdog .friendlyNameRetry)).2 }

def disarm (m : Machine) (kind : Timer.WatchdogKind) : Machine :=
  { m with watchdogs := (m.watchdogs.cancel kind).2 }

def disarmAll (m : Machine) : Machine :=
  { m with watchdogs := m.watchdogs.cancelAll }

def claim (m : Machine) (kind : Timer.WatchdogKind) (id : Nat) : Bool × Machine :=
  let (success, watchdogs) := m.watchdogs.claim kind id
  (success, { m with watchdogs })

def withTimetable (m : Machine) (t : Timer.Timetable Task) : Machine :=
  { m with watchdogs := { m.watchdogs with timetable := t } }

/-- Discovery starts again as soon as there is time for it. -/
def deferResume (m : Machine) : Machine :=
  m.withTimetable (m.watchdogs.timetable.defer .resumeDiscovery).2

end Machine

end CastReceiver
