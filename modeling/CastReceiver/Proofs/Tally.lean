import CastReceiver.Proofs.Discipline

/-!
# What is counted

Every attempt to cast is counted, and every question that is put to listeners. An attempt begins with
a bid that is taken in, and only in manual mode is anybody asked. Whatever else the machine does, and
whoever interferes with it, leaves the tally as it is.
-/
namespace CastReceiver

/-- A notification to which listeners are expected to answer. -/
def Notification.isQuestion : Notification → Bool
  | .connectionRequest .. | .launchRequest .. => true
  | .connectionError .. => false

def Event.question? : Event → Option Notification
  | .notification n => if n.isQuestion then some n else none
  | .state _ | .command _ => none

def Entry.question? (e : Entry) : Option Notification :=
  match e.happening with
  | .event e => e.question?
  | _ => none

structure Tally where
  automatic : Bool
  /-- How many attempts have begun. -/
  attempts : Nat
  /-- What listeners have been asked. -/
  questions : List Notification

namespace Tally

/-- No attempt begins, and in automatic mode nobody is asked. -/
structure Stays (s t : Tally) : Prop where
  automatic : t.automatic = s.automatic
  attempts : t.attempts = s.attempts
  questions : s.automatic = true → t.questions = s.questions

variable {s t u : Tally}

theorem Stays.refl : s.Stays s := ⟨rfl, rfl, fun _ => rfl⟩

theorem Stays.trans (h : s.Stays t) (h' : t.Stays u) : s.Stays u where
  automatic := h'.automatic.trans h.automatic
  attempts := h'.attempts.trans h.attempts
  questions ha := (h'.questions (h.automatic.trans ha)).trans (h.questions ha)

end Tally

namespace Machine

def questions (m : Machine) : List Notification :=
  m.journal.filterMap Entry.question?

def tally (m : Machine) : Tally where
  automatic := m.settings.autoAccept
  attempts := m.attempts
  questions := m.questions

variable {m : Machine}

theorem tally_emit {e : Event} (he : e.question? = none) : (m.emit e).tally = m.tally := by
  simp [tally, questions, emit, record, Entry.question?, he]

@[simp] theorem tally_command (c : Command) : (m.emit (.command c)).tally = m.tally :=
  tally_emit rfl

@[simp] theorem tally_notifyError (p : Peer) (reason : StopReason) :
    (m.notifyError p reason).tally = m.tally :=
  tally_emit rfl

@[simp] theorem tally_announceEnabled (enabled : Bool) :
    (m.announceEnabled enabled).tally = m.tally :=
  tally_emit rfl

@[simp] theorem tally_setPlayer (mac : String) (state : PlayerState) :
    (m.setPlayer mac state).tally = m.tally :=
  tally_emit rfl

@[simp] theorem tally_looked : m.looked.tally = m.tally := by
  simp [looked, tally, questions, record, Entry.question?]

/-- Listeners are asked in manual mode. -/
theorem stays_emit {e : Event} (hmanual : m.settings.autoAccept = false) :
    m.tally.Stays (m.emit e).tally where
  automatic := rfl
  attempts := rfl
  questions ha := nomatch hmanual.symm.trans ha

@[simp] theorem tally_adopt (pending : Option PendingPeer) :
    (m.adopt pending).tally = m.tally := by
  unfold adopt
  split
  · rfl
  · split <;> rfl

/-- The tally when a peer becomes the pending one. That begins an attempt, unless it has begun with
the launch that has just been taken in. -/
def begun (m : Machine) : Tally :=
  { m.tally with
    attempts := if m.phase = .directLaunchRequested then m.attempts else m.attempts + 1 }

theorem tally_enter_of_holds {target : Phase} (htarget : target.holdsPendingPeer = true)
    (pending : Option PendingPeer) : (m.enter target pending).tally = m.begun := by
  have hbegins : (if target.holdsPendingPeer && m.session.phase ≠ .directLaunchRequested then
      m.attempts + 1 else m.attempts) =
      if m.phase = .directLaunchRequested then m.attempts else m.attempts + 1 := by
    by_cases hphase : m.session.phase = .directLaunchRequested <;> simp [htarget, phase, hphase]
  rw [begun, ← hbegins]
  unfold enter
  dsimp only
  split
  · rfl
  · exact tally_emit rfl

theorem tally_enter {target : Phase} (htarget : target.holdsPendingPeer = false)
    (pending : Option PendingPeer) : (m.enter target pending).tally = m.tally := by
  unfold enter
  dsimp only
  rw [htarget]
  split
  · rfl
  · exact tally_emit rfl

end Machine

/-- Work leaves the tally as it is. -/
def counting : Discipline Tally where
  view := Machine.tally
  good _ := True
  allows s _ t := s.Stays t

/-- The tally when an occurrence has been taken in. -/
def Occurrence.counted (o : Occurrence) (m : Machine) : Tally :=
  if o.requester?.isSome && m.gate.enabled then m.begun else m.tally

namespace Run

variable {α β : Type} {s : Tally} {m : Machine}

theorem done_counts {a : α} (h : s.Stays m.tally) : (done m a).Completes counting s := h

theorem bind_counts {r : Run α} {f : Machine → α → Run β} (hr : r.Completes counting s)
    (hf : ∀ s m a, s.Stays m.tally → (f m a).Completes counting s) :
    (r.bind f).Completes counting s :=
  obeys_bind.2 (hr.mono hf)

theorem andThen_counts {r : Run α} {f : Machine → Run β} (hr : r.Completes counting s)
    (hf : ∀ s m, s.Stays m.tally → (f m).Completes counting s) :
    (r.andThen f).Completes counting s :=
  bind_counts hr fun s m _ => hf s m

theorem command_counts {c : Command} (h : s.Stays m.tally) :
    (m.command c).Completes counting s := by
  refine obeys_command.2 ⟨?_, fun _ _ => .refl⟩
  show s.Stays (m.emit (.command c)).tally
  rwa [Machine.tally_command]

end Run

namespace Machine

variable {m : Machine} {s : Tally}

theorem enter_counts (h : s.Stays m.tally) {target : Phase}
    (htarget : target.holdsPendingPeer = false) (pending : Option PendingPeer) :
    s.Stays (m.enter target pending).tally := by
  rwa [tally_enter htarget]

/-! ## Discovery -/

theorem resumeDiscovery_counts (h : s.Stays m.tally) :
    m.resumeDiscovery.Completes counting s := by
  rw [resumeDiscovery]
  split
  · apply Run.done_counts
    split <;> exact h
  · split
    case h_1 => exact Run.done_counts h
    case h_2 gate _ =>
      apply Run.command_counts
      split
      · exact enter_counts (m := { m with gate }) h rfl none
      · exact h

theorem suspendDiscovery_counts (h : s.Stays m.tally) :
    m.suspendDiscovery.Completes counting s := by
  rw [suspendDiscovery]
  split
  case h_1 => exact Run.done_counts h
  case h_2 gate _ =>
    apply Run.command_counts
    split
    · exact enter_counts (m := { m with gate }) h rfl none
    · exact h

theorem restartSession_counts (h : s.Stays m.tally) (mac : String) :
    (m.restartSession mac).Completes counting s := by
  rw [restartSession]
  split
  · exact Run.done_counts (enter_counts h rfl none)
  · exact Run.command_counts (enter_counts h rfl none)

theorem restartSessionOf_counts (h : s.Stays m.tally) (pending : Option PendingPeer) :
    (m.restartSessionOf pending).Completes counting s := by
  cases pending with
  | some p => exact restartSession_counts h p.mac
  | none => exact Run.done_counts (enter_counts h rfl none)

theorem refreshFriendlyName_counts (h : s.Stays m.tally) :
    m.refreshFriendlyName.Completes counting s := by
  rw [refreshFriendlyName]
  split
  · exact Run.done_counts h
  · have hlooked : s.Stays m.looked.tally := by
      rw [tally_looked]
      exact h
    split
    · exact Run.done_counts hlooked
    · exact Run.completes_returning.2 (Run.command_counts hlooked)

/-! ## Requests -/

theorem enable_counts (h : s.Stays m.tally) : m.enable.Completes counting s := by
  rw [enable]
  split
  · exact Run.done_counts h
  · have hon : s.Stays
        ({ m with gate := { m.gate with enabled := true } }.announceEnabled true).tally := by
      rw [tally_announceEnabled]
      exact h
    dsimp only
    split
    · exact Run.done_counts hon
    · split
      · exact Run.done_counts hon
      · exact Run.completes_returning.2 (resumeDiscovery_counts hon)

theorem disable_counts (h : s.Stays m.tally) : m.disable.Completes counting s := by
  rw [disable]
  split
  · exact Run.done_counts h
  · split
    · exact Run.done_counts h
    · refine Run.andThen_counts (suspendDiscovery_counts h) fun s m h => Run.done_counts ?_
      rw [tally_announceEnabled]
      exact enter_counts (m := (m.disarm .connectionAccept).disarm .radioConnect) h rfl none

theorem setEnabled_counts (h : s.Stays m.tally) (enabled : Bool) :
    (m.setEnabled enabled).Completes counting s := by
  cases enabled with
  | false => exact disable_counts h
  | true => exact Run.completes_map.2 (enable_counts h)

theorem applyDecision_counts (h : s.Stays m.tally) (d : Decision) :
    (m.applyDecision d).Completes counting s := by
  have hdisarmed : s.Stays (m.disarm .connectionAccept).tally := h
  unfold applyDecision
  dsimp only
  generalize m.disarm .connectionAccept = m at hdisarmed ⊢
  have haccepted : s.Stays ((m.adopt m.session.pending).enter .connectionAccepted).tally := by
    rwa [tally_enter rfl, tally_adopt]
  have hrejected : s.Stays (m.enter .connectionRejected).tally := enter_counts hdisarmed rfl none
  split
  case h_1 =>
    split
    · exact Run.completes_returning.2 (Run.command_counts haccepted)
    · exact Run.done_counts haccepted
  case h_2 => exact Run.completes_returning.2 (restartSessionOf_counts
      (m := (m.enter .connectionRejected).silencePlayer) hrejected _)
  case h_3 => exact Run.completes_returning.2 (Run.command_counts haccepted)
  case h_4 => exact Run.completes_returning.2 (Run.command_counts hrejected)
  case h_5 => exact Run.done_counts hdisarmed

theorem decide_counts (h : s.Stays m.tally) (text : String) :
    (m.decide text).Completes counting s := by
  rw [decide]
  split
  · exact Run.done_counts h
  · exact Run.completes_map.2 (applyDecision_counts h _)

theorem stopConnection_counts (h : s.Stays m.tally) (mac name : String) :
    (m.stopConnection mac name).Completes counting s := by
  rw [stopConnection]
  split
  case h_1 | h_3 => exact Run.done_counts h
  case h_2 =>
    split
    · exact Run.completes_returning.2 (restartSession_counts (enter_counts h rfl none) _)
    · exact Run.done_counts h

theorem endSession_counts (h : s.Stays m.tally) (mac name : String) (phase : Phase)
    (reason : StopReason) : (m.endSession mac name phase reason).Completes counting s := by
  rw [endSession]
  split
  · exact Run.done_counts h
  · have hnotified : s.Stays ((if reason.isFailure then m.notifyError ⟨mac, name⟩ reason
        else m).disarm .connectionAccept).tally := by
      split
      · rw [← tally_notifyError ⟨mac, name⟩ reason] at h
        exact h
      · exact h
    dsimp only
    generalize (if reason.isFailure then m.notifyError ⟨mac, name⟩ reason
      else m).disarm .connectionAccept = m at hnotified ⊢
    split
    · exact Run.completes_returning.2 (restartSession_counts hnotified mac)
    · exact Run.done_counts (enter_counts hnotified rfl none)

theorem updatePlayer_counts (h : s.Stays m.tally) (mac state : String) (code : Nat) :
    (m.updatePlayer mac state code).Completes counting s := by
  have hset (state : PlayerState) : s.Stays (m.setPlayer mac state).tally := by
    rwa [tally_setPlayer]
  rw [updatePlayer]
  split
  · exact Run.done_counts h
  · rw [Run.completes_map, playerStopped]
    split
    · exact Run.completes_returning.2 (Run.command_counts (hset _))
    · split
      · exact Run.done_counts h
      · exact endSession_counts (hset _) _ _ _ _
  · exact Run.done_counts (hset _)

/-! ## Reports -/

theorem endPreempted_counts (h : s.Stays m.tally) : m.endPreempted.Completes counting s := by
  rw [endPreempted]
  split
  · dsimp only
    split
    · apply Run.command_counts
      rw [tally_notifyError]
      exact h
    · exact Run.done_counts (m := (m.setPreempting none).setActive none) h
  · exact Run.done_counts h

/-- Only in manual mode does a bid come to a question. -/
theorem considerRequest_counts (h : s.Stays m.tally) (mac name : String) :
    (m.considerRequest mac name).Completes counting s := by
  rw [considerRequest]
  split
  · refine Run.andThen_counts (endPreempted_counts h) fun _ _ h => ?_
    exact Run.completes_returning.2 (applyDecision_counts h .accept)
  case isFalse hmanual =>
    exact Run.done_counts (h.trans (stays_emit (m := m.armConnectionAccept)
      (Bool.not_eq_true _ ▸ hmanual)))

theorem connectionRequested_counts (mac name : String) :
    (m.connectionRequested mac name).Completes counting
      (if m.gate.enabled then m.begun else m.tally) := by
  rw [connectionRequested]
  cases henabled : m.gate.enabled with
  | false => exact Run.command_counts .refl
  | true =>
    have hasked : (if m.phase = .playerLaunched then m.setPreempting (some ⟨mac, name⟩)
        else m).begun = m.begun := by
      split <;> rfl
    rw [if_pos rfl, if_neg (by decide), ← hasked]
    dsimp only
    generalize (if m.phase = .playerLaunched then m.setPreempting (some ⟨mac, name⟩)
      else m) = m₁
    apply considerRequest_counts
    split
    · rw [tally_enter_of_holds rfl]
      exact .refl
    · rw [tally_enter_of_holds rfl]
      exact .refl

theorem directLaunch_counts (l : Launch) :
    (m.directLaunch l).Completes counting (if m.gate.enabled then m.begun else m.tally) := by
  rw [directLaunch]
  cases henabled : m.gate.enabled with
  | false => exact Run.command_counts .refl
  | true =>
    let m₁ := (if m.phase = .playerLaunched then m.setPreempting (some l.peer) else m).enter
      .directLaunchRequested (some (.ofLaunch l))
    have henabled₁ : m₁.gate.enabled = true := by
      rw [enter_gate]
      split <;> exact henabled
    -- The attempt has begun with the launch; the request that it implies begins no other.
    have hbegun : m₁.begun = m.begun := by
      have hsame : m₁.begun = m₁.tally := by
        rw [begun, if_pos (enter_phase ..)]
        rfl
      rw [hsame, tally_enter_of_holds rfl]
      split <;> rfl
    have hrequested := connectionRequested_counts (m := m₁) l.sourceMac l.sourceName
    rwa [henabled₁, if_pos rfl, hbegun] at hrequested

theorem acceptedLaunch_counts (h : s.Stays m.tally) (l : Launch) :
    (m.acceptedLaunch l).Completes counting s := by
  rw [acceptedLaunch]
  split
  · let m₁ := ((m.setActive (some l.peer)).setPreempting none).enter .playerLaunched
    have hlaunched : s.Stays m₁.tally :=
      enter_counts (m := (m.setActive (some l.peer)).setPreempting none) h rfl none
    dsimp only
    split
    · exact Run.command_counts hlaunched
    case isFalse hmanual =>
      exact Run.done_counts (hlaunched.trans (stays_emit (m := m₁)
        (Bool.not_eq_true _ ▸ hmanual)))
  · exact Run.done_counts h

theorem discoveryRestarted_counts (h : s.Stays m.tally) :
    m.discoveryRestarted.Completes counting s := by
  rw [discoveryRestarted]
  apply Run.done_counts
  split
  · exact enter_counts h (by split <;> rfl) none
  · exact h

theorem wifiChanged_counts (h : s.Stays m.tally) (state : WifiState) :
    (m.wifiChanged state).Completes counting s := by
  rw [wifiChanged]
  split
  case h_1 radio _ =>
    refine Run.andThen_counts (suspendDiscovery_counts (m := { m with radio }) h) ?_
    exact fun _ m h => Run.done_counts (m := m.armRadioConnect) h
  case h_2 radio _ =>
    exact resumeDiscovery_counts (m := { m with radio }.disarm .radioConnect) h
  case h_3 => exact Run.done_counts h

theorem powerModeChanged_counts (h : s.Stays m.tally) (mode : PowerMode) :
    (m.powerModeChanged mode).Completes counting s := by
  rw [powerModeChanged]
  split
  case h_1 => exact Run.done_counts h
  case h_2 stop power _ =>
    have hstopped : (if stop then (({ m with power }.disarm .connectionAccept).disarm
        .radioConnect).suspendDiscovery else .done (({ m with power }.disarm
        .connectionAccept).disarm .radioConnect) ()).Completes counting s := by
      split
      · exact suspendDiscovery_counts h
      · exact Run.done_counts h
    refine Run.andThen_counts hstopped fun s m h => Run.done_counts ?_
    rw [fallAsleep]
    split
    · exact enter_counts h rfl none
    · exact h
  case h_3 => exact Run.done_counts h

theorem receive_counts (r : Report) :
    (m.receive r).Completes counting ((Occurrence.call (.report r)).counted m) := by
  cases r with
  | connectionRequest mac name => exact connectionRequested_counts mac name
  | launchRequest l reported =>
    cases reported with
    | false => exact directLaunch_counts l
    | true => exact acceptedLaunch_counts .refl l
  | discoveryRestarted => exact discoveryRestarted_counts .refl
  | powerModeChanged old new => exact powerModeChanged_counts .refl new
  | networkStandbyChanged _ => exact Run.done_counts .refl
  | wifiStateChanged state => exact wifiChanged_counts .refl state

/-! ## Starting, shutting down and alarms -/

theorem start_counts (h : s.Stays m.tally) : m.start.Completes counting s := by
  rw [start]
  refine Run.bind_counts (refreshFriendlyName_counts h) fun s m known h => ?_
  have hretried : s.Stays (if known then m else m.armFriendlyNameRetry).tally := by
    split <;> exact h
  dsimp only
  generalize (if known then m else m.armFriendlyNameRetry) = m₁ at hretried ⊢
  split
  · exact Run.completes_returning.2 (setEnabled_counts hretried true)
  · exact Run.done_counts hretried

theorem shutdown_counts (h : s.Stays m.tally) : m.shutdown.Completes counting s := by
  unfold shutdown
  dsimp only
  split
  case h_1 => exact Run.done_counts (m := m.disarmAll.reset) h
  case h_2 gate _ =>
    exact Run.andThen_counts (Run.command_counts (m := { m.disarmAll with gate }) h)
      fun _ m h => Run.done_counts (m := m.reset) h

theorem connectionAcceptExpired_counts (h : s.Stays m.tally) (id : Nat) :
    (m.connectionAcceptExpired id).Completes counting s := by
  have hclaimed : s.Stays (m.claim .connectionAccept id).2.tally := h
  rw [connectionAcceptExpired]
  generalize m.claim .connectionAccept id = claimed at hclaimed ⊢
  obtain ⟨won, m₁⟩ := claimed
  cases won with
  | false => exact Run.done_counts hclaimed
  | true =>
    dsimp only at hclaimed ⊢
    split
    · cases m₁.session.pending with
      | none => exact restartSessionOf_counts (m := m₁.silencePlayer) hclaimed none
      | some p =>
        refine restartSessionOf_counts (m := (m₁.notifyError p.peer .timeout).silencePlayer)
          ?_ (some p)
        rw [← m₁.tally_notifyError p.peer .timeout] at hclaimed
        exact hclaimed
    · exact Run.done_counts hclaimed

theorem radioConnectExpired_counts (h : s.Stays m.tally) (id : Nat) :
    (m.radioConnectExpired id).Completes counting s := by
  have hclaimed : s.Stays (m.claim .radioConnect id).2.tally := h
  rw [radioConnectExpired]
  generalize m.claim .radioConnect id = claimed at hclaimed ⊢
  obtain ⟨won, m₁⟩ := claimed
  cases won with
  | false => exact Run.done_counts hclaimed
  | true =>
    dsimp only at hclaimed ⊢
    split
    · exact resumeDiscovery_counts hclaimed
    · exact Run.done_counts hclaimed

theorem retryFriendlyName_counts (h : s.Stays m.tally) (id : Nat) :
    (m.retryFriendlyName id).Completes counting s := by
  rw [retryFriendlyName_eq]
  split
  · refine Run.bind_counts (refreshFriendlyName_counts h) fun s m known h => Run.done_counts ?_
    split <;> exact h
  · exact Run.done_counts h

theorem ring_counts (h : s.Stays m.tally) (a : Timer.Alarm Task) :
    (m.ring a).Completes counting s := by
  rw [ring]
  split
  case h_1 => exact resumeDiscovery_counts h
  case h_2 kind _ =>
    cases kind with
    | connectionAccept => exact connectionAcceptExpired_counts h _
    | radioConnect => exact radioConnectExpired_counts h _
    | friendlyNameRetry => exact retryFriendlyName_counts h _

theorem perform_counts (c : Call) :
    (m.perform c).Completes counting ((Occurrence.call c).counted m) := by
  cases c with
  | start => exact Run.completes_returning.2 (start_counts .refl)
  | shutdown => exact Run.completes_returning.2 (shutdown_counts .refl)
  | setEnabled enabled => exact Run.completes_map.2 (setEnabled_counts .refl enabled)
  | isEnabled | phase => exact Run.done_counts .refl
  | decide text => exact Run.completes_map.2 (decide_counts .refl text)
  | stop mac name => exact Run.completes_map.2 (stopConnection_counts .refl mac name)
  | player mac state code => exact Run.completes_map.2 (updatePlayer_counts .refl mac state code)
  | backendDiscovery enabled =>
    exact Run.completes_map.2 (Run.completes_returning.2 (Run.command_counts .refl))
  | report r => exact Run.completes_returning.2 (receive_counts r)

end Machine

theorem Occurrence.run_counts (o : Occurrence) (m : Machine) :
    (o.run m).Completes counting (o.counted m) := by
  cases o with
  | call c => exact Machine.perform_counts c
  | alarm a =>
    have hstart : m.tally.Stays (m.withTimetable (m.watchdogs.timetable.start a)).tally := .refl
    unfold run
    dsimp only
    split
    · exact Run.done_counts hstart
    · exact Run.completes_returning.2 (Machine.ring_counts hstart a)
  | elapse ms | settle => exact Run.done_counts .refl

/-- Whatever happens to a machine, only a bid that is taken in changes the tally, and only in manual
mode is anybody asked. -/
theorem counting_governs : counting.Governs Occurrence.counted where
  fresh _ _ := trivial
  runs m o _ _ := o.run_counts m
  kept _ _ := trivial
  keptOpened _ _ := trivial

end CastReceiver
