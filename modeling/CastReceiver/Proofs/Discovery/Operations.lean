import CastReceiver.Proofs.Discovery.Conditions

/-!
# Operations keep discovery steady

When nobody interferes while commands are carried out, every operation leads from conditions that
are steady to steady ones. Few operations change the conditions; the others leave them untouched.
-/
namespace CastReceiver.Machine

open Conditions

def conditions (m : Machine) : Conditions where
  gate := m.gate
  power := m.power
  radio := m.radio
  watchdogs := m.watchdogs
  phase := m.session.phase

variable {m : Machine}

@[simp] theorem conditions_enter (target : Phase) (pending : Option PendingPeer) :
    (m.enter target pending).conditions = { m.conditions with phase := target } := by
  simp [conditions, entered]

@[simp] theorem conditions_adopt (pending : Option PendingPeer) :
    (m.adopt pending).conditions = m.conditions := by
  unfold adopt
  split
  · rfl
  · split <;> rfl

/-- The alarm of the radio watchdog is pending while a connection to a network is attempted. -/
theorem armRadioConnect_slot :
    (m.armRadioConnect.watchdogs.slot .radioConnect).isSome = true := by
  show ((m.watchdogs.install .radioConnect _).2.slot .radioConnect).isSome = true
  rw [Timer.Watchdogs.install_slot, if_pos rfl]
  rfl

theorem armRadioConnect_timely (hm : m.watchdogs.Timely) : m.armRadioConnect.watchdogs.Timely :=
  hm.install m.settings.radioConnectTimeout none .radioConnect fun _ => rfl

/-! ## Starting and stopping discovery -/

theorem resumeDiscovery_steady (hm : m.conditions.Orderly) :
    m.resumeDiscovery.quietly.1.conditions.Steady := by
  rw [resumeDiscovery]
  split
  case isTrue hconnecting =>
    split
    case isTrue harmed =>
      have hslot := Timer.Watchdogs.isSome_slot_of_isArmed harmed
      exact ⟨hm, fun _ _ _ => .inr (.inl ⟨hconnecting, hslot⟩)⟩
    case isFalse =>
      have horderly : m.armRadioConnect.conditions.Orderly :=
        ⟨armRadioConnect_timely hm.timely, hm.active, hm.idle, hm.remembers⟩
      exact ⟨horderly, fun _ _ _ => .inr (.inl ⟨hconnecting, armRadioConnect_slot⟩)⟩
  case isFalse hconnecting =>
    rw [Bool.not_eq_true] at hconnecting
    rw [Gate.activate?]
    cases hstarts : m.gate.enabled && !m.gate.active && !m.power.isSuspended with
    | false =>
      refine ⟨hm, fun henabled hsuspended _ => .inl ?_⟩
      change m.gate.enabled = true at henabled
      change m.power.isSuspended = false at hsuspended
      show m.gate.active = true
      simpa [henabled, hsuspended] using hstarts
    | true =>
      simp only [Bool.and_eq_true, Bool.not_eq_true'] at hstarts
      have hactive : ∀ phase, phase ≠ .idle → Steady
          { m.conditions with gate := { m.gate with active := true }, phase } := by
        intro phase hphase
        refine ⟨⟨hm.timely, fun _ => ⟨hstarts.1.1, hstarts.2, hconnecting⟩, ?_, hm.remembers⟩, ?_⟩
        · exact fun hidle => absurd hidle hphase
        · exact fun _ _ _ => .inl rfl
      simp only [if_true]
      split
      case isTrue =>
        show (enter _ .discoverable).conditions.Steady
        rw [conditions_enter]
        exact hactive .discoverable nofun
      case isFalse hphase => exact hactive m.phase hphase

/-- However discovery is stopped, it is not running afterwards. -/
theorem suspendDiscovery_conditions : ∃ phase, m.suspendDiscovery.quietly.1.conditions =
    { m.conditions with gate := { m.gate with active := false }, phase } := by
  rw [suspendDiscovery, Gate.deactivate?]
  cases hactive : m.gate.active with
  | false =>
    have hgate : m.gate = { m.gate with active := false } := by rw [← hactive]
    exact ⟨m.phase, congrArg (fun gate => { m.conditions with gate }) hgate⟩
  | true =>
    simp only [if_true]
    split
    case isTrue =>
      refine ⟨.idle, ?_⟩
      show (enter _ .idle).conditions = _
      rw [conditions_enter]
      rfl
    case isFalse => exact ⟨m.phase, rfl⟩

section Suspend

variable (m : Machine)

@[simp] theorem suspendDiscovery_gate :
    m.suspendDiscovery.quietly.1.gate = { m.gate with active := false } := by
  obtain ⟨phase, h⟩ := suspendDiscovery_conditions (m := m)
  exact congrArg Conditions.gate h

@[simp] theorem suspendDiscovery_power : m.suspendDiscovery.quietly.1.power = m.power := by
  obtain ⟨phase, h⟩ := suspendDiscovery_conditions (m := m)
  exact congrArg Conditions.power h

@[simp] theorem suspendDiscovery_radio : m.suspendDiscovery.quietly.1.radio = m.radio := by
  obtain ⟨phase, h⟩ := suspendDiscovery_conditions (m := m)
  exact congrArg Conditions.radio h

@[simp] theorem suspendDiscovery_watchdogs :
    m.suspendDiscovery.quietly.1.watchdogs = m.watchdogs := by
  obtain ⟨phase, h⟩ := suspendDiscovery_conditions (m := m)
  exact congrArg Conditions.watchdogs h

end Suspend

/-- A session ends without discovery only where none may run. -/
theorem restartSession_untouched (hm : m.conditions.Orderly) (mac : String) :
    m.conditions.Untouched (m.restartSession mac).quietly.1.conditions := by
  rw [restartSession]
  split
  case isTrue hsuppressed =>
    show m.conditions.Untouched (m.enter .idle).conditions
    rw [conditions_enter]
    apply untouched_enter
    intro _
    rw [← Bool.not_eq_true]
    intro hactive
    obtain ⟨-, hsuspended, hconnecting⟩ := hm.active hactive
    change m.power.isSuspended = false at hsuspended
    change m.radio.connecting = false at hconnecting
    simp [hsuspended, hconnecting] at hsuppressed
  case isFalse =>
    show m.conditions.Untouched (m.enter .restartingSession).conditions
    rw [conditions_enter]
    exact untouched_enter nofun

theorem restartSessionOf_untouched (hm : m.conditions.Orderly) (pending : Option PendingPeer) :
    m.conditions.Untouched (m.restartSessionOf pending).quietly.1.conditions := by
  cases pending with
  | some p => exact restartSession_untouched hm p.mac
  | none =>
    show m.conditions.Untouched (m.enter .restartingSession).conditions
    rw [conditions_enter]
    exact untouched_enter nofun

/-- A phase with a session may be entered at any time. -/
theorem enter_untouched (target : Phase) (htarget : target ≠ .idle)
    (pending : Option PendingPeer) :
    m.conditions.Untouched (m.enter target pending).conditions := by
  rw [conditions_enter]
  exact untouched_enter fun h => absurd h htarget

theorem disarmConnectionAccept_untouched :
    m.conditions.Untouched (m.disarm .connectionAccept).conditions :=
  untouched_cancel .connectionAccept nofun

/-! ## Requests -/

theorem applyDecision_untouched (hm : m.conditions.Orderly) (d : Decision) :
    m.conditions.Untouched (m.applyDecision d).quietly.1.conditions := by
  have hdisarm := disarmConnectionAccept_untouched (m := m)
  have hm₁ := hm.of_untouched hdisarm
  unfold applyDecision
  dsimp only
  generalize m.disarm .connectionAccept = m₁ at hdisarm hm₁ ⊢
  refine hdisarm.trans ?_
  have haccepts : m₁.conditions.Untouched
      ((m₁.adopt m₁.session.pending).enter .connectionAccepted).conditions := by
    rw [conditions_enter, conditions_adopt]
    exact untouched_enter nofun
  have hrejects := enter_untouched (m := m₁) .connectionRejected nofun none
  split
  case h_1 => split <;> exact haccepts
  case h_2 =>
    rw [Run.quietly_returning]
    exact hrejects.trans (restartSessionOf_untouched
      (m := (m₁.enter .connectionRejected).silencePlayer) (hm₁.of_untouched hrejects) _)
  case h_3 => exact haccepts
  case h_4 => exact hrejects
  case h_5 => exact .refl _

theorem decide_untouched (hm : m.conditions.Orderly) (text : String) :
    m.conditions.Untouched (m.decide text).quietly.1.conditions := by
  rw [decide]
  split
  · exact .refl _
  · rw [Run.quietly_map]
    exact applyDecision_untouched hm _

theorem stopConnection_untouched (hm : m.conditions.Orderly) (mac name : String) :
    m.conditions.Untouched (m.stopConnection mac name).quietly.1.conditions := by
  have haborts := enter_untouched (m := m) .abortingConnection nofun none
  rw [stopConnection]
  split
  case h_1 => exact .refl _
  case h_2 =>
    split
    · rw [Run.quietly_returning]
      exact haborts.trans (restartSession_untouched (hm.of_untouched haborts) _)
    · exact .refl _
  case h_3 => exact .refl _

theorem endSession_untouched (hm : m.conditions.Orderly) (mac name : String) (phase : Phase)
    (reason : StopReason) :
    m.conditions.Untouched (m.endSession mac name phase reason).quietly.1.conditions := by
  have hdisarm : m.conditions.Untouched ((if reason.isFailure then m.notifyError ⟨mac, name⟩ reason
      else m).disarm .connectionAccept).conditions := by
    split <;> exact untouched_cancel .connectionAccept nofun
  have hm₁ := hm.of_untouched hdisarm
  rw [endSession]
  split
  · exact .refl _
  · dsimp only
    generalize (if reason.isFailure then m.notifyError ⟨mac, name⟩ reason else m).disarm
      .connectionAccept = m₁ at hdisarm hm₁ ⊢
    refine hdisarm.trans ?_
    split
    case isTrue =>
      rw [Run.quietly_returning]
      exact restartSession_untouched hm₁ mac
    case isFalse hdisabled =>
      show m₁.conditions.Untouched (m₁.enter .idle).conditions
      rw [conditions_enter]
      apply untouched_enter
      intro _
      rw [← Bool.not_eq_true]
      exact fun hactive => hdisabled (hm₁.active hactive).1

theorem updatePlayer_untouched (hm : m.conditions.Orderly) (mac state : String) (code : Nat) :
    m.conditions.Untouched (m.updatePlayer mac state code).quietly.1.conditions := by
  rw [updatePlayer]
  split
  · exact .refl _
  · rw [Run.quietly_map]
    rw [playerStopped]
    split
    · exact .refl _
    · split
      · exact .refl _
      · exact endSession_untouched (m := m.setPlayer mac .stopped) hm _ _ _ _
  · exact .refl _

/-! ## Reports of discovery -/

theorem endPreempted_conditions : m.endPreempted.quietly.1.conditions = m.conditions := by
  rw [endPreempted]
  split
  · dsimp only
    split <;> rfl
  · rfl

theorem considerRequest_untouched (hm : m.conditions.Orderly) (mac name : String) :
    m.conditions.Untouched (m.considerRequest mac name).quietly.1.conditions := by
  rw [considerRequest]
  split
  case isTrue =>
    rw [Run.quietly_andThen, Run.quietly_returning]
    rw [← endPreempted_conditions] at hm ⊢
    exact applyDecision_untouched hm .accept
  case isFalse =>
    exact untouched_install .connectionAccept nofun m.settings.connectionAcceptTimeout none

theorem connectionRequested_untouched (hm : m.conditions.Orderly) (mac name : String) :
    m.conditions.Untouched (m.connectionRequested mac name).quietly.1.conditions := by
  rw [connectionRequested]
  split
  · exact .refl _
  · dsimp only
    have hpreempting : (if m.phase = .playerLaunched then m.setPreempting (some ⟨mac, name⟩)
        else m).conditions = m.conditions := by
      split <;> rfl
    generalize (if m.phase = .playerLaunched then m.setPreempting (some ⟨mac, name⟩) else m) = m₁
      at hpreempting ⊢
    rw [← hpreempting] at hm ⊢
    split
    · have h := enter_untouched (m := m₁) .directLaunchConnecting nofun
      exact (h _).trans (considerRequest_untouched (hm.of_untouched (h _)) mac name)
    · have h := enter_untouched (m := m₁) .connecting nofun
      exact (h _).trans (considerRequest_untouched (hm.of_untouched (h _)) mac name)

theorem directLaunch_untouched (hm : m.conditions.Orderly) (l : Launch) :
    m.conditions.Untouched (m.directLaunch l).quietly.1.conditions := by
  rw [directLaunch]
  split
  · exact .refl _
  · dsimp only
    have hpreempting : (if m.phase = .playerLaunched then m.setPreempting (some l.peer)
        else m).conditions = m.conditions := by
      split <;> rfl
    generalize (if m.phase = .playerLaunched then m.setPreempting (some l.peer) else m) = m₁
      at hpreempting ⊢
    rw [← hpreempting] at hm ⊢
    have h := enter_untouched (m := m₁) .directLaunchRequested nofun
    exact (h _).trans (connectionRequested_untouched (hm.of_untouched (h _)) _ _)

theorem acceptedLaunch_untouched (l : Launch) :
    m.conditions.Untouched (m.acceptedLaunch l).quietly.1.conditions := by
  rw [acceptedLaunch]
  split
  · have h := enter_untouched (m := (m.setActive (some l.peer)).setPreempting none)
      .playerLaunched nofun none
    dsimp only
    split <;> exact h
  · exact .refl _

theorem discoveryRestarted_untouched :
    m.conditions.Untouched m.discoveryRestarted.quietly.1.conditions := by
  rw [discoveryRestarted]
  split
  · show m.conditions.Untouched (m.enter _).conditions
    rw [conditions_enter]
    apply untouched_enter
    split
    case isTrue => exact nofun
    case isFalse hactive => exact fun _ => Bool.not_eq_true _ ▸ hactive
  · exact .refl _

/-- Looking the name of the device up changes nothing here. -/
theorem refreshFriendlyName_conditions :
    m.refreshFriendlyName.quietly.1.conditions = m.conditions := by
  rw [refreshFriendlyName]
  split
  · rfl
  · split <;> rfl

end CastReceiver.Machine
