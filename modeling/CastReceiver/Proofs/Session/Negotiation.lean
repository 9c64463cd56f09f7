import CastReceiver.Proofs.Discovery.Steadiness
import CastReceiver.Proofs.Session.Deadline
import CastReceiver.Proofs.Stops

/-!
# Negotiations and their watchdog

While a peer waits for a decision, a watchdog waits with it. A stretch of work leaves both alone, or
it ends the negotiation and empties the slot of the watchdog, or it takes a request in and sets the
watchdog anew.
-/
namespace CastReceiver

/-- A negotiation, and the timers that its watchdog is one of. -/
structure Watch where
  phase : Phase
  watchdogs : Timer.Watchdogs Task
  settings : SessionSettings

namespace Watch

variable {s t u : Watch}

/-- A peer waits for a decision. -/
def Negotiates (s : Watch) : Prop :=
  s.phase = .connecting ∨ s.phase = .directLaunchConnecting

instance (s : Watch) : Decidable s.Negotiates :=
  inferInstanceAs (Decidable (_ ∨ _))

/-- The negotiation and its watchdog are left alone. -/
structure Spares (s t : Watch) : Prop where
  watchdogs : s.watchdogs.Spares .connectionAccept t.watchdogs
  negotiates : t.Negotiates ↔ s.Negotiates
  settings : t.settings = s.settings

/-- There is no negotiation any more, and its watchdog is not set. -/
structure Settles (s t : Watch) : Prop where
  watchdogs : s.watchdogs.Ensues t.watchdogs
  ended : ¬t.Negotiates
  slot : t.watchdogs.slot .connectionAccept = none
  settings : t.settings = s.settings

/-- A negotiation begins or begins anew, and its watchdog is set. -/
structure Opens (s t : Watch) : Prop where
  watchdogs : s.watchdogs.Ensues t.watchdogs
  negotiates : t.Negotiates
  goesOffAt : t.watchdogs.GoesOffAt .connectionAccept
    (s.watchdogs.timetable.now + s.settings.connectionAcceptTimeout)
  settings : t.settings = s.settings

/-- A phase is entered in which nobody waits for a decision, and timers are left as they are. -/
structure Leaves (s t : Watch) : Prop where
  ended : ¬t.Negotiates
  eq_phase : ∃ phase, t = { s with phase }

/-- No negotiation begins. -/
def Handles (s t : Watch) : Prop :=
  s.Spares t ∨ s.Settles t

theorem Spares.refl (hs : s.watchdogs.Sound) : s.Spares s := ⟨.refl hs, Iff.rfl, rfl⟩

theorem Spares.trans (h : s.Spares t) (h' : t.Spares u) : s.Spares u where
  watchdogs := h.watchdogs.trans h'.watchdogs
  negotiates := h'.negotiates.trans h.negotiates
  settings := h'.settings.trans h.settings

theorem Spares.settles (h : s.Spares t) (h' : t.Settles u) : s.Settles u where
  watchdogs := h.watchdogs.toEnsues.trans h'.watchdogs
  ended := h'.ended
  slot := h'.slot
  settings := h'.settings.trans h.settings

theorem Spares.handles (h : s.Spares t) (h' : t.Handles u) : s.Handles u :=
  h'.imp h.trans h.settles

/-- A phase in which nobody waits for a decision. -/
theorem not_negotiates (h : s.phase.holdsPendingPeer = false) : ¬s.Negotiates := by
  rintro (hphase | hphase) <;> simp [hphase, Phase.holdsPendingPeer] at h

theorem Leaves.spares (h : s.Leaves t) (hs : s.watchdogs.Sound)
    (hphase : s.phase.holdsPendingPeer = false) : s.Spares t := by
  obtain ⟨hended, phase, rfl⟩ := h
  exact ⟨.refl hs, iff_of_false hended (not_negotiates hphase), rfl⟩

/-- A negotiation ends whose watchdog has been cancelled before. -/
theorem Leaves.settles (h : t.Leaves u) (hensues : s.watchdogs.Ensues t.watchdogs)
    (hslot : t.watchdogs.slot .connectionAccept = none) (hsettings : t.settings = s.settings) :
    s.Settles u := by
  obtain ⟨hended, phase, rfl⟩ := h
  exact ⟨hensues, hended, hslot, hsettings⟩

/-- Timers other than the watchdog are set and cancelled. -/
theorem spares_watchdogs {watchdogs : Timer.Watchdogs Task}
    (h : s.watchdogs.Spares .connectionAccept watchdogs) : s.Spares { s with watchdogs } :=
  ⟨h, Iff.rfl, rfl⟩

end Watch

namespace Machine

variable {m : Machine}

def watch (m : Machine) : Watch where
  phase := m.session.phase
  watchdogs := m.watchdogs
  settings := m.settings

@[simp] theorem watch_enter (m : Machine) (target : Phase) (pending : Option PendingPeer) :
    (m.enter target pending).watch = { m.watch with phase := target } := by
  simp [watch, entered]

@[simp] theorem watch_adopt (m : Machine) (pending : Option PendingPeer) :
    (m.adopt pending).watch = m.watch := by
  unfold adopt
  split
  · rfl
  · split <;> rfl

theorem leaves_enter (m : Machine) {target : Phase} (htarget : target.holdsPendingPeer = false)
    (pending : Option PendingPeer) : m.watch.Leaves (m.enter target pending).watch := by
  rw [watch_enter]
  exact ⟨Watch.not_negotiates htarget, target, rfl⟩

/-- A negotiation ends after its watchdog has been cancelled. -/
theorem settles_of_disarm (hm : m.watchdogs.Sound) {t : Watch}
    (h : (m.disarm .connectionAccept).watch.Leaves t) : m.watch.Settles t := by
  have hslot : (m.disarm .connectionAccept).watchdogs.slot .connectionAccept = none := by
    simp [disarm]
  exact h.settles (Timer.Watchdogs.ensues_cancel hm .connectionAccept) hslot rfl

/-! ## Discovery -/

theorem resumeDiscovery_spares (hm : m.watchdogs.Sound) :
    m.resumeDiscovery.Brief fun m' => m.watch.Spares m'.watch := by
  rw [resumeDiscovery]
  split
  · rw [Run.brief_done]
    split
    · exact .refl hm
    · exact Watch.spares_watchdogs (Timer.Watchdogs.spares_install _ _ hm (by decide))
  · split
    case h_1 => exact .refl hm
    case h_2 gate _ =>
      rw [Run.brief_command]
      split
      case isTrue hidle =>
        have hphase : m.watch.phase.holdsPendingPeer = false :=
          congrArg Phase.holdsPendingPeer hidle
        have hleft : m.watch.Leaves (enter { m with gate } .discoverable).watch :=
          leaves_enter { m with gate } rfl none
        exact hleft.spares hm hphase
      case isFalse => exact .refl hm

theorem suspendDiscovery_spares (hm : m.watchdogs.Sound) :
    m.suspendDiscovery.Brief fun m' => m.watch.Spares m'.watch := by
  rw [suspendDiscovery]
  split
  case h_1 => exact .refl hm
  case h_2 gate _ =>
    rw [Run.brief_command]
    split
    case isTrue hdiscoverable =>
      have hphase : m.watch.phase.holdsPendingPeer = false :=
        congrArg Phase.holdsPendingPeer hdiscoverable
      have hleft : m.watch.Leaves (enter { m with gate } .idle).watch :=
        leaves_enter { m with gate } rfl none
      exact hleft.spares hm hphase
    case isFalse => exact .refl hm

theorem restartSession_leaves (m : Machine) (mac : String) :
    (m.restartSession mac).Brief fun m' => m.watch.Leaves m'.watch := by
  rw [restartSession]
  split
  · exact leaves_enter m rfl none
  · exact Run.brief_command.2 (leaves_enter m rfl none)

theorem restartSessionOf_leaves (m : Machine) (pending : Option PendingPeer) :
    (m.restartSessionOf pending).Brief fun m' => m.watch.Leaves m'.watch := by
  cases pending with
  | some p => exact restartSession_leaves m p.mac
  | none => exact leaves_enter m rfl none

theorem refreshFriendlyName_spares (hm : m.watchdogs.Sound) :
    m.refreshFriendlyName.Brief fun m' => m.watch.Spares m'.watch := by
  rw [refreshFriendlyName]
  split
  · exact .refl hm
  · split
    · exact .refl hm
    · exact (Run.brief_command.2 (.refl hm)).returning true

/-! ## Requests -/

theorem enable_spares (hm : m.watchdogs.Sound) :
    m.enable.Brief fun m' => m.watch.Spares m'.watch := by
  rw [enable]
  split
  · exact .refl hm
  · dsimp only
    split
    · exact Watch.spares_watchdogs (Timer.Watchdogs.spares_add 0 none hm _ fun _ => rfl)
    · split
      · exact .refl hm
      · apply Run.Brief.returning
        exact resumeDiscovery_spares hm

/-- The service is switched off when discovery has stopped. -/
theorem settles_of_disabled (hm : m.watchdogs.Sound) : m.watch.Settles
    ((((m.disarm .connectionAccept).disarm .radioConnect).enter .idle).announceEnabled
      false).watch := by
  have haccept := Timer.Watchdogs.ensues_cancel hm .connectionAccept
  have hradio := Timer.Watchdogs.ensues_cancel haccept.sound .radioConnect
  have hslot : ((m.disarm .connectionAccept).disarm .radioConnect).watchdogs.slot
      .connectionAccept = none := by simp [disarm]
  exact (leaves_enter _ rfl none).settles (haccept.trans hradio) hslot rfl

/-- Whatever is decided, nobody waits for a decision any more. -/
theorem applyDecision_settles (hm : m.watchdogs.Sound) (d : Decision) :
    (m.applyDecision d).Brief fun m' => m.watch.Settles m'.watch := by
  have hsettles : ∀ t, (m.disarm .connectionAccept).watch.Leaves t → m.watch.Settles t :=
    fun _ => settles_of_disarm hm
  unfold applyDecision
  dsimp only
  generalize m.disarm .connectionAccept = m₁ at hsettles ⊢
  have haccepted : m.watch.Settles
      ((m₁.adopt m₁.session.pending).enter .connectionAccepted).watch := by
    apply hsettles
    rw [← watch_adopt m₁ m₁.session.pending]
    exact leaves_enter _ rfl none
  split
  case h_1 =>
    split
    · exact (Run.brief_command.2 haccepted).returning _
    · exact haccepted
  case h_2 =>
    apply Run.Brief.returning
    apply (restartSessionOf_leaves _ _).mono
    rintro m' ⟨hended, phase, hm'⟩
    refine hsettles _ ⟨hended, phase, hm'.trans ?_⟩
    show { (m₁.enter .connectionRejected).watch with phase } = _
    rw [watch_enter]
  case h_3 => exact (Run.brief_command.2 haccepted).returning _
  case h_4 =>
    exact (Run.brief_command.2 (hsettles _ (leaves_enter m₁ rfl none))).returning _
  case h_5 d _ _ hdirect hdirect' hconnecting hconnecting' =>
    refine hsettles _ ⟨?_, m₁.phase, rfl⟩
    rintro (hphase | hphase)
    · cases d
      · exact hconnecting hphase rfl
      · exact hconnecting' hphase rfl
    · cases d
      · exact hdirect hphase rfl
      · exact hdirect' hphase rfl

theorem decide_handles (hm : m.watchdogs.Sound) (text : String) :
    (m.decide text).Brief fun m' => m.watch.Handles m'.watch := by
  rw [decide]
  split
  · exact .inl (.refl hm)
  · apply Run.Brief.map
    exact (applyDecision_settles hm _).mono fun _ => .inr

/-- A connection is stopped when nobody waits for a decision any more. -/
theorem stopConnection_spares (hm : m.watchdogs.Sound) (mac name : String) :
    (m.stopConnection mac name).Brief fun m' => m.watch.Spares m'.watch := by
  rw [stopConnection]
  split
  case h_1 => exact .refl hm
  case h_2 haccepted =>
    split
    · apply Run.Brief.returning
      have haborts : m.watch.Spares (m.enter .abortingConnection).watch :=
        (leaves_enter m rfl none).spares hm (congrArg Phase.holdsPendingPeer haccepted)
      apply (restartSession_leaves _ _).mono
      intro m' hleft
      exact haborts.trans (hleft.spares haborts.watchdogs.sound (by simp [Phase.holdsPendingPeer]))
    · exact .refl hm
  case h_3 => exact .refl hm

theorem endSession_handles (hm : m.watchdogs.Sound) (mac name : String) (phase : Phase)
    (reason : StopReason) :
    (m.endSession mac name phase reason).Brief fun m' => m.watch.Handles m'.watch := by
  have hwatch : ((if reason.isFailure then m.notifyError ⟨mac, name⟩ reason else m).disarm
      .connectionAccept).watch = (m.disarm .connectionAccept).watch := by
    split <;> rfl
  rw [endSession]
  split
  · exact .inl (.refl hm)
  · dsimp only
    generalize (if reason.isFailure then m.notifyError ⟨mac, name⟩ reason else m).disarm
      .connectionAccept = m₁ at hwatch ⊢
    have hsettles : ∀ t, m₁.watch.Leaves t → m.watch.Handles t := by
      rw [hwatch]
      exact fun t hleft => .inr (settles_of_disarm hm hleft)
    split
    · apply Run.Brief.returning
      exact (restartSession_leaves m₁ mac).mono fun m' => hsettles m'.watch
    · exact hsettles _ (leaves_enter m₁ rfl none)

theorem updatePlayer_handles (hm : m.watchdogs.Sound) (mac state : String) (code : Nat) :
    (m.updatePlayer mac state code).Brief fun m' => m.watch.Handles m'.watch := by
  rw [updatePlayer]
  split
  · exact .inl (.refl hm)
  · apply Run.Brief.map
    rw [playerStopped]
    split
    · exact (Run.brief_command.2 (.inl (.refl hm))).returning _
    · split
      · exact .inl (.refl hm)
      · exact endSession_handles (m := m.setPlayer mac .stopped) hm _ _ _ _
  · exact .inl (.refl hm)

/-! ## Reports -/

/-- A request in manual mode is taken in and waits for a decision, with its watchdog. -/
theorem considerRequest_opens (hm : m.watchdogs.Sound) (hmanual : m.settings.autoAccept = false)
    (hphase : m.watch.Negotiates) (mac name : String) :
    (m.considerRequest mac name).Brief fun m' => m.watch.Opens m'.watch := by
  rw [considerRequest, hmanual]
  exact ⟨Timer.Watchdogs.ensues_install _ _ hm _, hphase,
    Timer.Watchdogs.goesOffAt_install _ hm _, rfl⟩

/-- A request that is taken in is considered in a phase in which it waits for a decision. -/
theorem connectionRequested_of_enabled (henabled : m.gate.enabled = true) (mac name : String) :
    ∃ m₁ : Machine, ∃ phase, m₁.watch = { m.watch with phase } ∧ m₁.watch.Negotiates ∧
      m.connectionRequested mac name = m₁.considerRequest mac name := by
  have hpreempting : (if m.phase = .playerLaunched then m.setPreempting (some ⟨mac, name⟩)
      else m).watch = m.watch := by
    split <;> rfl
  rw [connectionRequested]
  rw [if_neg (by simp [henabled])]
  dsimp only
  generalize (if m.phase = .playerLaunched then m.setPreempting (some ⟨mac, name⟩) else m) = m₁
    at hpreempting ⊢
  rw [← hpreempting]
  split
  · refine ⟨_, .directLaunchConnecting, watch_enter m₁ _ _, .inr ?_, rfl⟩
    exact enter_phase m₁ _ _
  · refine ⟨_, .connecting, watch_enter m₁ _ _, .inl ?_, rfl⟩
    exact enter_phase m₁ _ _

theorem directLaunch_of_enabled (henabled : m.gate.enabled = true) (l : Launch) :
    ∃ m₁ : Machine, ∃ phase, m₁.watch = { m.watch with phase } ∧ m₁.watch.Negotiates ∧
      m.directLaunch l = m₁.considerRequest l.sourceMac l.sourceName := by
  let m₀ := (if m.phase = .playerLaunched then m.setPreempting (some l.peer) else m).enter
    .directLaunchRequested (some (.ofLaunch l))
  have hgate : m₀.gate.enabled = true := by
    rw [enter_gate]
    split <;> exact henabled
  have hwatch : m₀.watch = { m.watch with phase := .directLaunchRequested } := by
    rw [watch_enter]
    split <;> rfl
  obtain ⟨m₁, phase, hm₁, hnegotiates, hrun⟩ :=
    connectionRequested_of_enabled hgate l.sourceMac l.sourceName
  refine ⟨m₁, phase, ?_, hnegotiates, ?_⟩
  · rw [hm₁, hwatch]
  · rw [← hrun, directLaunch]
    rw [if_neg (by simp [henabled])]

theorem acceptedLaunch_spares (hm : m.watchdogs.Sound) (l : Launch) :
    (m.acceptedLaunch l).Brief fun m' => m.watch.Spares m'.watch := by
  rw [acceptedLaunch]
  split
  case isTrue hadmitted =>
    have hphase : m.watch.phase.holdsPendingPeer = false := by
      rw [Bool.and_eq_true, decide_eq_true_eq] at hadmitted
      exact congrArg Phase.holdsPendingPeer hadmitted.1
    have hleft : m.watch.Leaves (((m.setActive (some l.peer)).setPreempting none).enter
        .playerLaunched).watch :=
      leaves_enter ((m.setActive (some l.peer)).setPreempting none) rfl none
    have hspared := hleft.spares hm hphase
    dsimp only
    split
    · exact Run.brief_command.2 hspared
    · exact hspared
  case isFalse => exact .refl hm

theorem discoveryRestarted_spares (hm : m.watchdogs.Sound) :
    m.discoveryRestarted.Brief fun m' => m.watch.Spares m'.watch := by
  rw [discoveryRestarted]
  rw [Run.brief_done]
  split
  case isTrue hawaits =>
    have hphase : m.watch.phase.holdsPendingPeer = false := by
      have hawaits' : m.watch.phase.awaitsRestart = true := hawaits
      cases h : m.watch.phase <;> simp_all [Phase.awaitsRestart, Phase.holdsPendingPeer]
    refine Watch.Leaves.spares ?_ hm hphase
    split <;> exact leaves_enter m rfl none
  case isFalse => exact .refl hm

/-- A device that falls asleep ends a negotiation, but leaves timers alone. -/
theorem fallAsleep_leaves (m : Machine) : m.watch.Leaves m.fallAsleep.watch := by
  rw [fallAsleep]
  split
  case isTrue => exact leaves_enter m rfl none
  case isFalse hawake =>
    have hphase : m.phase.holdsPendingPeer = false := by
      cases h : m.phase <;> simp [h, Phase.isUnengaged, Phase.holdsPendingPeer] at hawake ⊢
    exact ⟨Watch.not_negotiates hphase, m.phase, rfl⟩

/-! ## Alarms -/

variable {a : Timer.Alarm Task}

/-- An alarm goes off that is not that of the watchdog, or that is given up. -/
theorem alarmed_spares (hm : m.watchdogs.Sound) (ha : a ∈ m.watchdogs.timetable.alarms)
    (h : a.task ≠ .watchdog .connectionAccept ∨ a.isVoid = true) :
    m.watch.Spares (m.alarmed a).watch := by
  apply Watch.spares_watchdogs
  apply Timer.Watchdogs.spares_start hm ha
  refine h.imp_left fun htask hslot => hm.id_ne hslot ha htask rfl

theorem claim_spares (hm : m.watchdogs.Sound) (kind : Timer.WatchdogKind)
    (hkind : kind ≠ .connectionAccept) (id : Nat) : m.watch.Spares (m.claim kind id).2.watch := by
  show m.watch.Spares { m.watch with watchdogs := (m.watchdogs.claim kind id).2 }
  rw [Timer.Watchdogs.claim]
  split
  · exact Watch.spares_watchdogs (Timer.Watchdogs.spares_emptySlot hm hkind)
  · exact .refl hm

theorem radioConnectExpired_spares (hm : m.watchdogs.Sound) (id : Nat) :
    (m.radioConnectExpired id).Brief fun m' => m.watch.Spares m'.watch := by
  have hclaim := claim_spares hm .radioConnect nofun id
  rw [radioConnectExpired]
  generalize m.claim .radioConnect id = claimed at hclaim ⊢
  obtain ⟨won, m₁⟩ := claimed
  cases won with
  | false => exact hclaim
  | true =>
    dsimp only at hclaim ⊢
    split
    case h_1 radio _ =>
      have hresumed := resumeDiscovery_spares (m := { m₁ with radio }) hclaim.watchdogs.sound
      exact hresumed.mono fun _ => hclaim.trans
    case h_2 => exact hclaim

/-- The negotiation ends if the alarm that goes off is that of its watchdog. -/
theorem connectionAcceptExpired_handles (hm : m.watchdogs.Sound)
    (ha : a ∈ m.watchdogs.timetable.alarms) :
    ((m.alarmed a).connectionAcceptExpired a.id).Brief fun m' => m.watch.Handles m'.watch := by
  rw [connectionAcceptExpired]
  by_cases hslot : m.watchdogs.slot .connectionAccept = some a.id
  · obtain ⟨m₁, hm₁⟩ : ∃ m₁, m₁ = { m.alarmed a with
        watchdogs := (m.alarmed a).watchdogs.setSlot .connectionAccept none } := ⟨_, rfl⟩
    have hclaim : (m.alarmed a).claim .connectionAccept a.id = (true, m₁) := by
      have hcurrent : (m.alarmed a).watchdogs.isCurrent .connectionAccept a.id = true :=
        beq_iff_eq.2 hslot
      simp [claim, Timer.Watchdogs.claim, hcurrent, hm₁]
    have hstart := Timer.Watchdogs.ensues_start hm a
    have hensues : m.watchdogs.Ensues m₁.watchdogs := by
      rw [hm₁]
      exact hstart.trans (Timer.Watchdogs.ensues_emptySlot hstart.sound .connectionAccept)
    have hempty : m₁.watchdogs.slot .connectionAccept = none := by simp [hm₁]
    have hsettings : m₁.settings = m.settings := by rw [hm₁]; rfl
    have hsettles : ∀ t, m₁.watch.Leaves t → m.watch.Handles t :=
      fun t hleft => .inr (hleft.settles hensues hempty hsettings)
    rw [hclaim]
    dsimp only
    split
    case isTrue =>
      cases m₁.session.pending with
      | none =>
        exact (restartSessionOf_leaves m₁.silencePlayer none).mono fun m' => hsettles m'.watch
      | some p =>
        let m₂ := (m₁.notifyError p.peer .timeout).silencePlayer
        exact (restartSessionOf_leaves m₂ (some p)).mono fun m' => hsettles m'.watch
    case isFalse hover =>
      rw [Bool.or_eq_true, decide_eq_true_eq, decide_eq_true_eq] at hover
      exact .inr ⟨hensues, hover, hempty, hsettings⟩
  · have hclaim : (m.alarmed a).claim .connectionAccept a.id = (false, m.alarmed a) := by
      have hcurrent : (m.alarmed a).watchdogs.isCurrent .connectionAccept a.id = false :=
        beq_eq_false_iff_ne.2 hslot
      simp [claim, Timer.Watchdogs.claim, hcurrent]
    rw [hclaim]
    exact .inl (Watch.spares_watchdogs (Timer.Watchdogs.spares_start hm ha (.inl hslot)))

end Machine

end CastReceiver
