import CastReceiver.Proofs.Disabled
import CastReceiver.Proofs.Session.Automatic
import CastReceiver.Proofs.Session.Refusals
import CastReceiver.Proofs.Session.Trace

/-!
# How sessions end

A session ends when the player stops, when an accepted connection is stopped, when a direct launch
is turned down and when nobody decides about a peer in time. All four end alike: something is said
of the reason, nobody takes part any longer, and discovery restarts for one peer, unless the power
mode or the radio suppresses it. The peers are forgotten on the way, so each ending has to remember
beforehand for whom discovery restarts.
-/
namespace CastReceiver

namespace Event

/-- The command that goes out with an event. -/
def command? : Event → Option Command
  | command c => some c
  | _ => none

/-- What listeners are told by an event. -/
def notification? : Event → Option Notification
  | notification n => some n
  | _ => none

end Event

namespace Machine

variable {m m' m₁ : Machine} {before es : List Event} {source : Phase} {mac name : String}

/-- Discovery may not restart now. -/
def suppressed (m : Machine) : Bool :=
  m.power.isSuspended || m.radio.connecting

/-- What is said at the very end of a session: discovery restarts for a peer, if it may. -/
def farewell (m : Machine) (source : Phase) (mac : String) : List Event :=
  if m.suppressed then [Change.announced ⟨source, .idle, none⟩ m.now]
  else [Change.announced ⟨source, .restartingSession, m.session.id⟩ m.now,
    .command (.restartSessionDiscovery mac)]

/-- A session is over, and nobody is left of it. Some events have come before its very end. -/
structure Closes (m m' : Machine) (before : List Event) (source : Phase) (mac : String) :
    Prop where
  pending : m'.session.pending = none
  active : m'.session.active = none
  preempting : m'.session.preempting = none
  slot : m'.watchdogs.slot .connectionAccept = none
  suppressed : m'.suppressed = m.suppressed
  phase : m'.phase = if m.suppressed then .idle else .restartingSession
  course : m.Says m' (before ++ m.farewell source mac)

/-- A session may be left by other steps before it is over. -/
theorem Closes.after (h : m₁.Closes m' es source mac) (htold : m.Says m₁ before)
    (hpower : m₁.power = m.power) (hradio : m₁.radio = m.radio)
    (hid : m₁.session.id = m.session.id) : m.Closes m' (before ++ es) source mac := by
  have hsuppressed : m₁.suppressed = m.suppressed := by
    rw [suppressed.eq_def m₁, hpower, hradio]
    rfl
  have hfarewell : m₁.farewell source mac = m.farewell source mac := by
    rw [farewell, hsuppressed, htold.now, hid]
    rfl
  refine ⟨h.pending, h.active, h.preempting, h.slot, h.suppressed.trans hsuppressed,
    hsuppressed ▸ h.phase, ?_⟩
  rw [List.append_assoc, ← hfarewell]
  exact htold.trans h.course

/-- Nobody is left in a phase that ends a session. -/
theorem closes_enter {target : Phase} (htarget : target.forgetsPeers = true)
    (hslot : m.watchdogs.slot .connectionAccept = none)
    (hphase : target = if m.suppressed then .idle else .restartingSession)
    (htold : m.Says m' (m.farewell source mac))
    (hm' : ∃ journal, m' = { m.enter target with journal }) : m.Closes m' [] source mac := by
  obtain ⟨journal, rfl⟩ := hm'
  have hsuppressed : (m.enter target).suppressed = m.suppressed := by
    rw [suppressed, enter_power, enter_radio]
    rfl
  have hsession : (m.enter target).session = m.entered target none := enter_session ..
  refine ⟨?_, ?_, ?_, ?_, hsuppressed, ?_, htold⟩
  · exact congrArg Session.pending hsession
  · exact (congrArg Session.active hsession).trans (if_pos htarget)
  · exact (congrArg Session.preempting hsession).trans (if_pos htarget)
  · exact (congrArg (fun w => w.slot .connectionAccept) (enter_watchdogs ..)).trans hslot
  · exact (enter_phase ..).trans hphase

theorem restartSession_closes (hslot : m.watchdogs.slot .connectionAccept = none)
    (hidle : m.phase ≠ .idle) (hrestarting : m.phase ≠ .restartingSession) (mac : String) :
    m.Closes (m.restartSession mac).quietly.1 [] m.phase mac := by
  rw [restartSession]
  split
  case isTrue h =>
    have hsuppressed : m.suppressed = true := h
    have htold : m.Says (m.enter .idle none) _ := says_enter (.inl hidle) none
    rw [enter_session] at htold
    refine closes_enter rfl hslot (by rw [hsuppressed]; rfl) ?_ ⟨_, rfl⟩
    rw [farewell, hsuppressed]
    exact htold
  case isFalse h =>
    have hsuppressed : m.suppressed = false := Bool.eq_false_iff.2 h
    have htold : m.Says (m.enter .restartingSession none) _ :=
      says_enter (.inl hrestarting) none
    rw [enter_session] at htold
    refine closes_enter rfl hslot (by rw [hsuppressed]; rfl) ?_ ⟨_, rfl⟩
    rw [farewell, hsuppressed]
    exact htold.trans (says_emit _ _)

/-! ## Four endings -/

theorem slot_disarm (m : Machine) (kind : Timer.WatchdogKind) :
    (m.disarm kind).watchdogs.slot kind = none := by
  rw [disarm, Timer.Watchdogs.cancel_slot, if_pos rfl]

theorem endSession_closes (reason : StopReason) (henabled : m.gate.enabled = true)
    (hengaged : m.phase.isUnengaged = false) (hrestarting : m.phase ≠ .restartingSession)
    (mac name : String) :
    m.Closes (m.endSession mac name m.phase reason).quietly.1
      (if reason.isFailure then
        [.notification (.connectionError ⟨mac, name⟩ reason.code m.now)] else []) m.phase mac := by
  have hopen : ¬(m.phase.isUnengaged || m.phase = .restartingSession) = true := by
    simp [hengaged, hrestarting]
  obtain ⟨m₁, hm₁⟩ : ∃ m₁, m₁ =
    if reason.isFailure then m.notifyError ⟨mac, name⟩ reason else m := ⟨_, rfl⟩
  have hsame : m₁.session = m.session ∧ m₁.power = m.power ∧ m₁.radio = m.radio ∧
      m₁.gate = m.gate := by
    rw [hm₁]
    split <;> exact ⟨rfl, rfl, rfl, rfl⟩
  obtain ⟨hsession, hpower, hradio, hgate⟩ := hsame
  have htold : m.Says m₁ (if reason.isFailure then
      [.notification (.connectionError ⟨mac, name⟩ reason.code m.now)] else []) := by
    rw [hm₁]
    split
    · exact says_emit _ _
    · exact says_nil rfl rfl
  have hphase : (m₁.disarm .connectionAccept).phase = m.phase := congrArg Session.phase hsession
  have hcloses := restartSession_closes (m₁.slot_disarm .connectionAccept)
    (hphase ▸ (Phase.isUnengaged_eq_false_iff.1 hengaged).1) (hphase ▸ hrestarting) mac
  rw [endSession, if_neg hopen, ← hm₁]
  dsimp only
  rw [if_pos (show (m₁.disarm .connectionAccept).gate.enabled = true from hgate ▸ henabled),
    Run.quietly_returning, ← hphase, ← List.append_nil (ite ..)]
  exact hcloses.after (htold.disarm _) hpower hradio (congrArg Session.id hsession)

/-- The player stops for a peer that no other has replaced. -/
theorem playerStopped_closes {reason : StopReason} (henabled : m.gate.enabled = true)
    (hreason : reason ≠ .newConnection) (hsuperseded : m.session.isSuperseded mac = false)
    (hengaged : m.phase.isUnengaged = false) (hrestarting : m.phase ≠ .restartingSession) :
    m.Closes (m.playerStopped mac reason).quietly.1
      (.state (.playerStateChanged mac .stopped m.now) ::
        if reason.isFailure then
          [.notification (.connectionError ⟨mac, m.session.nameFor mac⟩ reason.code m.now)]
        else [])
      m.phase mac := by
  have hstopped : m.Says (m.setPlayer mac .stopped)
      [.state (.playerStateChanged mac .stopped m.now)] := ⟨rfl, rfl⟩
  have hcloses := endSession_closes (m := m.setPlayer mac .stopped) reason henabled
    hengaged hrestarting mac (m.session.nameFor mac)
  rw [playerStopped, if_neg hreason, if_neg (Bool.eq_false_iff.1 hsuperseded)]
  exact hcloses.after hstopped rfl rfl rfl

/-- An accepted connection is stopped by the peer that has it. -/
theorem stopConnection_closes (hslot : m.watchdogs.slot .connectionAccept = none)
    (hphase : m.phase = .connectionAccepted)
    (hknown : m.session.connected.any (fun p => p.matchesIdentity mac name) = true) :
    m.Closes (m.stopConnection mac name).quietly.1
      [Change.announced ⟨.connectionAccepted, .abortingConnection, m.session.id⟩ m.now]
      .abortingConnection ((m.session.preempting.map Peer.mac).getD mac) := by
  have haborting : m.Says (m.enter .abortingConnection none) _ :=
    says_enter (.inl (by rw [hphase]; decide)) none
  rw [enter_session, hphase] at haborting
  have hphase' : (m.enter .abortingConnection).phase = .abortingConnection := enter_phase ..
  have hcloses := restartSession_closes (m := m.enter .abortingConnection)
    (by rw [enter_watchdogs]; exact hslot) (by rw [hphase']; decide) (by rw [hphase']; decide)
    ((m.session.preempting.map Peer.mac).getD mac)
  rw [stopConnection, hphase]
  dsimp only
  rw [if_pos hknown, Run.quietly_returning]
  rw [hphase'] at hcloses
  exact hcloses.after haborting (enter_power ..) (enter_radio ..) (by rw [enter_session]; rfl)

theorem undergo_decide (m : Machine) (text : String) :
    m.undergo (.call (.decide text)) = (m.decide text).quietly.1 :=
  congrArg Prod.fst (Run.quietly_map ..)

/-- A direct launch is turned down. -/
theorem decide_reject_closes {p : PendingPeer} (hphase : m.phase = .directLaunchConnecting)
    (hpending : m.session.pending = some p) {text : String}
    (htext : Decision.parse? text = some .reject) :
    m.Closes (m.decide text).quietly.1
      [Change.announced ⟨.directLaunchConnecting, .connectionRejected, m.session.id⟩ m.now]
      .connectionRejected p.mac := by
  obtain ⟨m₁, hm₁⟩ : ∃ m₁, m₁ = m.disarm .connectionAccept := ⟨_, rfl⟩
  have hcancelled : m.Says m₁ [] := by
    rw [hm₁]
    exact (says_nil rfl rfl).disarm _
  have hphase₁ : m₁.phase = .directLaunchConnecting := by rw [hm₁]; exact hphase
  have hpending₁ : m₁.session.pending = some p := by rw [hm₁]; exact hpending
  have hid₁ : m₁.session.id = m.session.id := by rw [hm₁]; rfl
  have hentered : m₁.Says (m₁.enter .connectionRejected none) _ :=
    says_enter (.inl (by rw [hphase₁]; decide)) none
  have hrejected := hcancelled.trans hentered
  rw [enter_session, hphase₁, hcancelled.now] at hrejected
  have hsilenced : m.Says (m₁.enter .connectionRejected).silencePlayer
      [Change.announced ⟨.directLaunchConnecting, .connectionRejected, m₁.session.id⟩ m.now] :=
    hrejected.trans (says_nil rfl rfl)
  rw [hid₁] at hsilenced
  have hphase₂ : (m₁.enter .connectionRejected).silencePlayer.phase = .connectionRejected :=
    enter_phase m₁ _ _
  have hslot : (m₁.enter .connectionRejected).silencePlayer.watchdogs.slot .connectionAccept =
      none := by
    show (m₁.enter .connectionRejected).watchdogs.slot _ = none
    rw [enter_watchdogs, hm₁, slot_disarm]
  have hcloses := restartSession_closes hslot (by rw [hphase₂]; decide)
    (by rw [hphase₂]; decide) p.mac
  have hrun : (m.decide text).quietly.1 =
      ((m₁.enter .connectionRejected).silencePlayer.restartSession p.mac).quietly.1 := by
    rw [decide, htext]
    unfold applyDecision
    dsimp only
    rw [← hm₁, hphase₁, hpending₁, Run.quietly_map, Run.quietly_returning]
    rfl
  rw [hphase₂] at hcloses
  rw [hrun]
  refine hcloses.after hsilenced ?_ ?_ ?_
  · exact (enter_power m₁ _ _).trans (by rw [hm₁]; rfl)
  · exact (enter_radio m₁ _ _).trans (by rw [hm₁]; rfl)
  · show (m₁.enter .connectionRejected).session.id = _
    rw [enter_session, ← hid₁]
    rfl

/-- The watchdog of a negotiation goes off in time. -/
theorem connectionAcceptExpired_closes {p : PendingPeer} {id : Nat}
    (hslot : m.watchdogs.slot .connectionAccept = some id)
    (hphase : m.phase = .connecting ∨ m.phase = .directLaunchConnecting)
    (hpending : m.session.pending = some p) :
    m.Closes (m.connectionAcceptExpired id).quietly.1
      [.notification (.connectionError p.peer StopReason.timeout.code m.now)] m.phase p.mac := by
  obtain ⟨m₁, hm₁⟩ : ∃ m₁, m₁ =
    { m with watchdogs := m.watchdogs.setSlot .connectionAccept none } := ⟨_, rfl⟩
  have hclaim : m.claim .connectionAccept id = (true, m₁) := by
    have hcurrent : m.watchdogs.isCurrent .connectionAccept id = true := beq_iff_eq.2 hslot
    simp [claim, Timer.Watchdogs.claim, hcurrent, hm₁]
  have hphase₁ : m₁.phase = m.phase := by rw [hm₁]; rfl
  have hpending₁ : m₁.session.pending = some p := by rw [hm₁]; exact hpending
  let m₂ := (m₁.notifyError p.peer .timeout).silencePlayer
  have htold : m.Says m₂ [.notification (.connectionError p.peer StopReason.timeout.code m.now)] := by
    unfold m₂
    rw [hm₁]
    exact ⟨rfl, rfl⟩
  have hslot₂ : m₂.watchdogs.slot .connectionAccept = none := by
    show m₁.watchdogs.slot _ = none
    rw [hm₁]
    rfl
  have hphase₂ : m₂.phase = m.phase := hphase₁
  have hcloses := restartSession_closes hslot₂
    (by rw [hphase₂]; rcases hphase with h | h <;> rw [h] <;> decide)
    (by rw [hphase₂]; rcases hphase with h | h <;> rw [h] <;> decide) p.mac
  have hnegotiates : (m₁.phase = .connecting || m₁.phase = .directLaunchConnecting) = true := by
    rw [hphase₁]
    rcases hphase with h | h <;> rw [h] <;> rfl
  have hrun : (m.connectionAcceptExpired id).quietly.1 = (m₂.restartSession p.mac).quietly.1 := by
    rw [connectionAcceptExpired, hclaim]
    dsimp only
    rw [if_pos hnegotiates, hpending₁]
    rfl
  rw [hphase₂] at hcloses
  rw [hrun]
  exact hcloses.after htold (by unfold m₂; rw [hm₁]; rfl) (by unfold m₂; rw [hm₁]; rfl)
    (by unfold m₂; rw [hm₁]; rfl)

/-- What is said at the very end is at most one command. -/
theorem commands_farewell (m : Machine) (source : Phase) (mac : String) :
    (m.farewell source mac).filterMap Event.command? =
      if m.suppressed then [] else [.restartSessionDiscovery mac] := by
  rw [farewell]
  split <;> rfl

theorem notifications_farewell (m : Machine) (source : Phase) (mac : String) :
    (m.farewell source mac).filterMap Event.notification? = [] := by
  rw [farewell]
  split <;> rfl

end Machine

/-! ## Whatever ends a session -/

/-- What may end a session. -/
inductive Ending where
  | stopped (mac state : String) (code : Nat)
  | disconnected (mac name : String)
  | rejected (text : String)
  | expired (a : Timer.Alarm Task)

namespace Ending

variable {m : Machine} {e : Ending}

def occurrence : Ending → Occurrence
  | stopped mac state code => .call (.player mac state code)
  | disconnected mac name => .call (.stop mac name)
  | rejected text => .call (.decide text)
  | expired a => .alarm a

/-- It does end the session of a machine. -/
def Ends (m : Machine) : Ending → Prop
  | stopped mac state code => PlayerState.parse? state = some .stopped ∧
      StopReason.ofCode code ≠ .newConnection ∧ m.session.isSuperseded mac = false ∧
      m.phase.isUnengaged = false ∧ m.phase ≠ .restartingSession
  | disconnected mac name =>
    ∃ a, (m.perform (.stop mac name)).quietly.2 = .ack a ∧ a.success = true
  | rejected text => Decision.parse? text = some .reject ∧ m.phase = .directLaunchConnecting
  | expired a =>
    a ∈ m.watchdogs.timetable.due ∧ m.watchdogs.slot .connectionAccept = some a.id

/-- The address of the peer for which discovery restarts. -/
def restarted? (m : Machine) : Ending → Option String
  | stopped mac .. => some mac
  | disconnected mac _ => some ((m.session.preempting.map Peer.mac).getD mac)
  | rejected _ | expired _ => m.session.pending.map PendingPeer.mac

/-- The last phase of the session. -/
def last (m : Machine) : Ending → Phase
  | disconnected .. => .abortingConnection
  | rejected _ => .connectionRejected
  | stopped .. | expired _ => m.phase

/-- What is said of the reason. -/
def reason (m : Machine) : Ending → List Event
  | stopped mac _ code => .state (.playerStateChanged mac .stopped m.now) ::
      if (StopReason.ofCode code).isFailure then
        [.notification (.connectionError ⟨mac, m.session.nameFor mac⟩ code m.now)]
      else []
  | disconnected .. =>
    [Change.announced ⟨.connectionAccepted, .abortingConnection, m.session.id⟩ m.now]
  | rejected _ =>
    [Change.announced ⟨.directLaunchConnecting, .connectionRejected, m.session.id⟩ m.now]
  | expired _ => m.session.pending.toList.map fun p =>
      .notification (.connectionError p.peer StopReason.timeout.code m.now)

/-- No command goes out before the very end. -/
theorem commands_reason (m : Machine) (e : Ending) :
    (e.reason m).filterMap Event.command? = [] := by
  cases e with
  | stopped mac state code =>
    rw [reason]
    split <;> rfl
  | disconnected | rejected => rfl
  | expired a => cases h : m.session.pending <;> simp [reason, h, Event.command?]

/-- A connection is stopped with success only if it has been accepted and names a peer of it. -/
theorem accepted_of_ends {mac name : String} (h : (disconnected mac name).Ends m) :
    m.phase = .connectionAccepted ∧
      m.session.connected.any (fun p => p.matchesIdentity mac name) = true := by
  obtain ⟨a, hreply, hsuccess⟩ := h
  have hreply' : Reply.ofOutcome (m.stopConnection mac name).quietly.2 = .ack a := by
    rw [← hreply]
    exact (congrArg Prod.snd (Run.quietly_map (m.stopConnection mac name) Reply.ofOutcome)).symm
  rw [Machine.stopConnection] at hreply'
  split at hreply'
  case h_1 => cases hreply'
  case h_2 hphase =>
    split at hreply'
    case isTrue hknown => exact ⟨hphase, hknown⟩
    case isFalse => cases hreply'
  case h_3 =>
    obtain rfl := Reply.ack.inj hreply'
    exact absurd hsuccess Bool.false_ne_true

end Ending

namespace World

variable {m : Machine} {os : List Occurrence}

theorem Reachable.undergoes (hm : Reachable ⟨m, []⟩) (hos : m.AllPossible os) :
    Reachable ⟨m.undergoes os, []⟩ := by
  induction os generalizing m with
  | nil => exact hm
  | cons o os ih => exact ih (hm.undergo hos.1) hos.2

theorem Reachable.observed {w : World} (hw : w.Reachable) : ∃ os, w.Observed os := by
  induction hw with
  | fresh settings nameSource => exact ⟨[], observed_fresh settings nameSource⟩
  | turn _ t ht ih =>
    obtain ⟨os, hobserved⟩ := ih
    exact ⟨_, hobserved.turn ht⟩

/-- Between operations a session has a service that is wanted. -/
theorem Reachable.enabled_of_engaged (hm : Reachable ⟨m, []⟩) (hidle : m.phase ≠ .idle) :
    m.gate.enabled = true := by
  obtain ⟨os, hobserved⟩ := hm.observed
  obtain rfl : os = [] := hobserved.conduct.eq_nil rfl
  cases henabled : m.gate.enabled with
  | true => rfl
  | false => exact absurd ((hobserved.sober.idle henabled).resolve_right nofun) hidle

end World

namespace Ending

variable {m : Machine} {e : Ending}

/-- Every ending leads to the same end. -/
theorem closes (hm : World.Reachable ⟨m, []⟩) (hapt : m.watch.Apt) (he : e.Ends m) :
    ∃ mac, e.restarted? m = some mac ∧
      m.Closes (m.undergo e.occurrence) (e.reason m) (e.last m) mac := by
  have hkept : m.parties.Kept := Discipline.reachable_good shifting_governs hm
  have hpending (hphase : m.phase = .connecting ∨ m.phase = .directLaunchConnecting) :
      ∃ p, m.session.pending = some p := hkept.exists_pending hphase
  cases e with
  | stopped mac state code =>
    obtain ⟨hstate, hreason, hsuperseded, hengaged, hrestarting⟩ := he
    have hrun : m.undergo (stopped mac state code).occurrence =
        (m.playerStopped mac (.ofCode code)).quietly.1 := by
      show ((m.updatePlayer mac state code).map _).quietly.1 = _
      rw [Run.quietly_map, Machine.updatePlayer, hstate]
      exact congrArg Prod.fst (Run.quietly_map ..)
    have henabled : m.gate.enabled = true :=
      hm.enabled_of_engaged (Phase.isUnengaged_eq_false_iff.1 hengaged).1
    have hcloses :=
      Machine.playerStopped_closes henabled hreason hsuperseded hengaged hrestarting
    rw [StopReason.code_ofCode] at hcloses
    refine ⟨mac, rfl, ?_⟩
    rw [hrun]
    exact hcloses
  | disconnected mac name =>
    obtain ⟨hphase, hknown⟩ := accepted_of_ends he
    have hslot : m.watchdogs.slot .connectionAccept = none := by
      rw [← Option.not_isSome_iff_eq_none]
      intro hset
      have hnegotiates : m.phase = .connecting ∨ m.phase = .directLaunchConnecting :=
        hapt.negotiates hset
      rw [hphase] at hnegotiates
      exact absurd hnegotiates (by decide)
    have hrun : m.undergo (disconnected mac name).occurrence =
        (m.stopConnection mac name).quietly.1 := congrArg Prod.fst (Run.quietly_map ..)
    refine ⟨_, rfl, ?_⟩
    rw [hrun]
    exact Machine.stopConnection_closes hslot hphase hknown
  | rejected text =>
    obtain ⟨htext, hphase⟩ := he
    obtain ⟨p, hp⟩ := hpending (.inr hphase)
    refine ⟨p.mac, congrArg (Option.map PendingPeer.mac) hp, ?_⟩
    rw [occurrence, m.undergo_decide]
    exact Machine.decide_reject_closes hphase hp htext
  | expired a =>
    obtain ⟨hdue, hslot⟩ := he
    have ha : a ∈ m.watchdogs.timetable.alarms := List.mem_of_mem_filter hdue
    have halert : m.watch.Alert := (Upkeep.reachable_upheld vigilance_governs hm).sound
    have hset : (m.watchdogs.slot .connectionAccept).isSome = true := by rw [hslot]; rfl
    have hphase : m.phase = .connecting ∨ m.phase = .directLaunchConnecting :=
      hapt.negotiates hset
    have htask : a.task = .watchdog .connectionAccept :=
      halert.sound.owned _ _ hslot a ha rfl
    -- The alarm in the slot is one that goes off, and there is no other one of its number.
    have hvoid : a.isVoid = false := by
      obtain ⟨time, b, hb, hbslot, -, hvoid⟩ := halert.goesOffAt hset
      have hid : b.id = a.id := Option.some.inj (hbslot.symm.trans hslot)
      rwa [← List.inj_on_of_nodup_map halert.sound.distinct hb ha hid]
    obtain ⟨p, hp⟩ := hpending hphase
    have hcloses := Machine.connectionAcceptExpired_closes (m := m.alarmed a) hslot hphase hp
    have hstarted : m.Says (m.alarmed a) [] :=
      Machine.says_nil rfl (Timer.Timetable.start_now m.watchdogs.timetable a)
    have hrun : m.undergo (expired a).occurrence =
        ((m.alarmed a).connectionAcceptExpired a.id).quietly.1 := by
      show (Occurrence.run m (.alarm a)).quietly.1 = _
      rw [Occurrence.run, if_neg (Bool.eq_false_iff.1 hvoid), Run.quietly_returning,
        Machine.ring, htask]
      rfl
    refine ⟨p.mac, congrArg (Option.map PendingPeer.mac) hp, ?_⟩
    rw [hrun, reason, hp]
    rw [hstarted.now] at hcloses
    exact hcloses.after hstarted rfl rfl rfl

end Ending

namespace World

/-- In a quiet run, whenever a session ends with a stop of the player, of an accepted connection, by
a direct launch that is turned down or for want of a decision: nobody is left, the watchdog of the
negotiation is not set, and discovery restarts for the peer of this ending with exactly one command
or, if that is suppressed, not at all. Listeners hear of the peer nobody decided about, and of
nothing else. -/
theorem session_ends_with_one_restart (settings : SessionSettings)
    (nameSource : Option NameSource) {os : List Occurrence}
    (hos : (fresh settings nameSource).machine.AllPossible os) {e : Ending}
    (he : e.Ends ((fresh settings nameSource).machine.undergoes os)) :
    let m := (fresh settings nameSource).machine.undergoes os
    let m' := m.undergo e.occurrence
    ∃ mac es, e.restarted? m = some mac ∧ m.Says m' es ∧
      m'.session.pending = none ∧ m'.session.active = none ∧ m'.session.preempting = none ∧
      m'.watchdogs.isArmed .connectionAccept = false ∧
      (m'.power.isSuspended = true ∨ m'.radio.connecting = true →
        m'.phase = .idle ∧ es.filterMap Event.command? = []) ∧
      (m'.power.isSuspended = false → m'.radio.connecting = false →
        m'.phase = .restartingSession ∧
          es.filterMap Event.command? = [.restartSessionDiscovery mac]) ∧
      ∀ a, e = .expired a → ∃ p, m.session.pending = some p ∧
        es.filterMap Event.notification? =
          [.connectionError p.peer StopReason.timeout.code m.now] := by
  intro m m'
  have hm : Reachable ⟨m, []⟩ := (Reachable.fresh settings nameSource).undergoes hos
  have hapt : m.watch.Apt :=
    Machine.undergoes_apt ⟨Timer.Watchdogs.timely_empty.toSound, fun h => nomatch h⟩ hos
  obtain ⟨mac, hmac, hcloses⟩ := Ending.closes hm hapt he
  have hcommands : (e.reason m ++ m.farewell (e.last m) mac).filterMap Event.command? =
      if m'.suppressed then [] else [.restartSessionDiscovery mac] := by
    rw [List.filterMap_append, e.commands_reason, List.nil_append, m.commands_farewell,
      hcloses.suppressed]
  have hphase : m'.phase = if m'.suppressed then .idle else .restartingSession := by
    rw [hcloses.suppressed]
    exact hcloses.phase
  refine ⟨mac, _, hmac, hcloses.course, hcloses.pending, hcloses.active, hcloses.preempting,
    ?_, fun hsuppressed => ?_, fun hawake hquiet => ?_, ?_⟩
  · rw [Timer.Watchdogs.isArmed, hcloses.slot]
  · have h : m'.suppressed = true := Bool.or_eq_true .. ▸ hsuppressed
    rw [h] at hphase hcommands
    exact ⟨hphase, hcommands⟩
  · have h : m'.suppressed = false := by rw [Machine.suppressed, hawake, hquiet]; rfl
    rw [h] at hphase hcommands
    exact ⟨hphase, hcommands⟩
  · rintro a rfl
    have hkept : m.parties.Kept := Discipline.reachable_good shifting_governs hm
    obtain ⟨p, hp, -⟩ := Option.map_eq_some_iff.1 hmac
    refine ⟨p, hp, ?_⟩
    rw [List.filterMap_append, m.notifications_farewell, List.append_nil, Ending.reason, hp]
    rfl

/-- A peer that plays is asked to make room for a second one, which is accepted. When its connection
is stopped, discovery restarts for the second peer. -/
theorem session_ends_with_one_restart_for_preempting_peer :
    ∃ os : List Occurrence, (fresh {} none).machine.AllPossible os ∧
      let m' := ((fresh {} none).machine.undergoes os).undergo (.call (.stop "aa" "A"))
      ∃ es, ((fresh {} none).machine.undergoes os).Says m' es ∧
        m'.phase = .restartingSession ∧
        es.filterMap Event.command? = [.restartSessionDiscovery "bb"] := by
  let os : List Occurrence :=
    [.call (.setEnabled true), .call (.report (.connectionRequest "aa" "A")),
      .call (.decide "Accept"),
      .call (.report (.launchRequest ⟨.v4 ⟨10, 0, 0, 2⟩, "aa", "A", .v4 ⟨10, 0, 0, 1⟩⟩ true)),
      .call (.report (.connectionRequest "bb" "B")), .call (.decide "Accept")]
  have hos : (fresh {} none).machine.AllPossible os := by decide +kernel
  have hstopped : (Ending.disconnected "aa" "A").Ends ((fresh {} none).machine.undergoes os) :=
    ⟨.done, by decide +kernel, rfl⟩
  obtain ⟨mac, es, hmac, htold, -, -, -, -, -, hrestarts, -⟩ :=
    session_ends_with_one_restart {} none hos hstopped
  have hrestarted : some "bb" = some mac := by
    rw [← hmac]
    decide +kernel
  obtain rfl := Option.some.inj hrestarted
  obtain ⟨hphase, hcommands⟩ := hrestarts (by decide +kernel) (by decide +kernel)
  exact ⟨os, hos, es, htold, hphase, hcommands⟩

end World

end CastReceiver
