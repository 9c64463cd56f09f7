import CastReceiver.Proofs.Commands
import CastReceiver.Proofs.Deeds

/-!
# Every stretch of work is a series of deeds

Whatever comes back from commands, each operation changes the account of the session by deeds
(`conduct_governs`). So what every deed keeps holds at all times, and what deeds write down is all
that is written down.
-/
namespace CastReceiver

/-- Stretches of work change the account by deeds, and end in a settled phase. -/
def conduct : Regime Account where
  view := Machine.account
  opened _ m := m.account
  good := Account.Settled
  allows o s _ t := Deeds o s t

namespace Run

variable {α β : Type} {o : Occurrence} {s : Account} {m : Machine}

theorem done_deeds {a : α} (h : Deeds o s m.account) :
    (done m a).Completes (conduct.under o) s := h

theorem bind_deeds {r : Run α} {f : Machine → α → Run β} (hr : r.Completes (conduct.under o) s)
    (hf : ∀ s m a, Deeds o s m.account → (f m a).Completes (conduct.under o) s) :
    (r.bind f).Completes (conduct.under o) s :=
  obeys_bind.2 (hr.mono hf)

theorem andThen_deeds {r : Run α} {f : Machine → Run β} (hr : r.Completes (conduct.under o) s)
    (hf : ∀ s m, Deeds o s m.account → (f m).Completes (conduct.under o) s) :
    (r.andThen f).Completes (conduct.under o) s :=
  bind_deeds hr fun s m _ => hf s m

theorem command_deeds {c : Command} (h : Deeds o s (m.account.note (.command c))) :
    (m.command c).Completes (conduct.under o) s := by
  refine obeys_command.2 ⟨?_, fun _ _ => .refl⟩
  rw [← Machine.account_command] at h
  exact h

end Run

namespace Machine

variable {o : Occurrence} {s : Account} {m : Machine}

theorem enter_deeds (h : Deeds o s m.account) (target : Phase) (pending : Option PendingPeer)
    (htarget : m.account.MayEnter target) : Deeds o s (m.enter target pending).account := by
  rw [account_enter]
  exact h.enter target htarget

/-! ## Discovery -/

theorem resumeDiscovery_deeds (h : Deeds o s m.account) :
    m.resumeDiscovery.Completes (conduct.under o) s := by
  rw [resumeDiscovery]
  split
  · apply Run.done_deeds
    split <;> exact h
  · split
    case h_1 => exact Run.done_deeds h
    case h_2 hgate =>
      obtain ⟨henabled, hinactive, rfl⟩ := Gate.started_of_activate? hgate
      have hstarted := h.deed (.startDiscovery henabled hinactive)
      apply Run.command_deeds
      rw [apply_ite account, account_enter]
      exact hstarted

theorem suspendDiscovery_deeds (h : Deeds o s m.account) :
    m.suspendDiscovery.Completes (conduct.under o) s := by
  rw [suspendDiscovery]
  split
  case h_1 => exact Run.done_deeds h
  case h_2 hgate =>
    obtain ⟨hactive, rfl⟩ := Gate.eq_of_deactivate? hgate
    have hstopped := h.deed (.stopDiscovery hactive)
    apply Run.command_deeds
    rw [apply_ite account, account_enter]
    exact hstopped

theorem restartSession_deeds (hidle : Deeds o s (m.account.enter .idle))
    (hrestarting : Deeds o s (m.account.enter .restartingSession)) (mac : String) :
    (m.restartSession mac).Completes (conduct.under o) s := by
  rw [restartSession]
  split
  · apply Run.done_deeds
    rwa [account_enter]
  · apply Run.command_deeds
    rw [account_enter]
    exact hrestarting.command (Account.enter_phase _ _)

/-- A session that is not over yet may be restarted. -/
theorem restartSession_deeds_of_engaged (h : Deeds o s m.account)
    (hphase : m.phase.isUnengaged = false) (mac : String) :
    (m.restartSession mac).Completes (conduct.under o) s :=
  restartSession_deeds (h.enter .idle trivial) (h.enter .restartingSession hphase) mac

theorem restartSessionOf_deeds (h : Deeds o s m.account) (hphase : m.phase.isUnengaged = false)
    (pending : Option PendingPeer) :
    (m.restartSessionOf pending).Completes (conduct.under o) s := by
  cases pending with
  | some p => exact restartSession_deeds_of_engaged h hphase p.mac
  | none => exact Run.done_deeds (enter_deeds h .restartingSession none hphase)

theorem refreshFriendlyName_deeds (h : Deeds o s m.account) :
    m.refreshFriendlyName.Completes (conduct.under o) s := by
  rw [refreshFriendlyName]
  split
  · exact Run.done_deeds h
  · have hlooked : Deeds o s m.looked.account := by
      rw [account_looked]
      exact h
    generalize m.looked = m₁ at hlooked ⊢
    split
    · exact Run.done_deeds hlooked
    · exact Run.completes_returning.2 (Run.command_deeds (hlooked.command trivial))

/-! ## Requests -/

theorem enable_deeds (ho : o.Enables m.settings) (h : Deeds o s m.account) :
    m.enable.Completes (conduct.under o) s := by
  rw [enable]
  split
  · exact Run.done_deeds h
  · have hon : Deeds o s
        ({ m with gate := { m.gate with enabled := true } }.announceEnabled true).account := by
      rw [account_announceEnabled]
      exact h.deed (.switchOn ho)
    dsimp only
    generalize { m with gate := { m.gate with enabled := true } }.announceEnabled true = m₁
      at hon ⊢
    split
    · exact Run.done_deeds hon
    · split
      · exact Run.done_deeds hon
      · exact Run.completes_returning.2 (resumeDiscovery_deeds hon)

theorem disable_deeds (ho : o = .call (.setEnabled false)) (h : Deeds o s m.account) :
    m.disable.Completes (conduct.under o) s := by
  rw [disable]
  split
  · exact Run.done_deeds h
  · split
    · exact Run.done_deeds h
    · rename_i hphase
      refine Run.andThen_deeds (suspendDiscovery_deeds (h.deed (.switchOff ho hphase))) ?_
      intro s m h
      apply Run.done_deeds
      rw [account_announceEnabled, account_enter]
      exact (h.enter .idle trivial).deed (.announceOff ho)

theorem setEnabled_deeds (h : Deeds o s m.account) (enabled : Bool)
    (ho : o = .call (.setEnabled enabled)) :
    (m.setEnabled enabled).Completes (conduct.under o) s := by
  subst ho
  cases enabled with
  | false => exact disable_deeds rfl h
  | true => exact Run.completes_map.2 (enable_deeds trivial h)

theorem applyDecision_deeds (h : Deeds o s m.account) (d : Decision) :
    (m.applyDecision d).Completes (conduct.under o) s := by
  have hdisarmed : Deeds o s (m.disarm .connectionAccept).account := h
  unfold applyDecision
  dsimp only
  generalize m.disarm .connectionAccept = m at hdisarmed ⊢
  have hadopted : Deeds o s (m.adopt m.session.pending).account := by rwa [account_adopt]
  have hasked (hphase : m.phase = .connecting ∨ m.phase = .directLaunchConnecting) :
      (m.adopt m.session.pending).account.MayEnter .connectionAccepted := by
    rw [account_adopt]
    exact hphase
  split
  case h_1 hphase =>
    have haccepted := hadopted.enter _ (hasked (.inr hphase))
    split
    · apply Run.completes_returning.2
      apply Run.command_deeds
      rw [account_enter]
      exact haccepted.command (Account.enter_phase _ _)
    · apply Run.done_deeds
      rwa [account_enter]
  case h_2 hphase =>
    have hrejected := enter_deeds hdisarmed .connectionRejected none (.inr hphase)
    refine Run.completes_returning.2 (restartSessionOf_deeds
      (m := (m.enter .connectionRejected).silencePlayer) hrejected ?_ _)
    rw [show (m.enter .connectionRejected).silencePlayer.phase = .connectionRejected from
      enter_phase ..]
    rfl
  case h_3 hphase =>
    have haccepted := hadopted.enter _ (hasked (.inl hphase))
    apply Run.completes_returning.2
    apply Run.command_deeds
    rw [account_enter]
    exact haccepted.command (Account.enter_phase _ _)
  case h_4 hphase =>
    have hrejected := hdisarmed.enter .connectionRejected (.inl hphase)
    apply Run.completes_returning.2
    apply Run.command_deeds
    rw [account_enter]
    exact hrejected.command trivial
  case h_5 => exact Run.done_deeds hdisarmed

theorem decide_deeds (h : Deeds o s m.account) (text : String) :
    (m.decide text).Completes (conduct.under o) s := by
  rw [decide]
  split
  · exact Run.done_deeds h
  · exact Run.completes_map.2 (applyDecision_deeds h _)

theorem stopConnection_deeds (h : Deeds o s m.account) (mac name : String) :
    (m.stopConnection mac name).Completes (conduct.under o) s := by
  rw [stopConnection]
  split
  case h_1 => exact Run.done_deeds h
  case h_2 hphase =>
    split
    · apply Run.completes_returning.2
      apply restartSession_deeds
      · rw [account_enter]
        exact h.deed (.abort hphase (.inl rfl))
      · rw [account_enter]
        exact h.deed (.abort hphase (.inr rfl))
    · exact Run.done_deeds h
  case h_3 => exact Run.done_deeds h

theorem endSession_deeds (h : Deeds o s m.account) (mac name : String) (reason : StopReason) :
    (m.endSession mac name m.phase reason).Completes (conduct.under o) s := by
  rw [endSession]
  split
  · exact Run.done_deeds h
  case isFalse hengaged =>
    have hphase : m.phase.isUnengaged = false := by
      rw [Bool.or_eq_true, not_or] at hengaged
      exact Bool.not_eq_true _ ▸ hengaged.1
    have hnotified : ((if reason.isFailure then m.notifyError ⟨mac, name⟩ reason
        else m).disarm .connectionAccept).account = m.account := by
      split
      · exact m.account_notifyError ⟨mac, name⟩ reason
      · rfl
    dsimp only
    generalize (if reason.isFailure then m.notifyError ⟨mac, name⟩ reason else m).disarm
      .connectionAccept = m₁ at hnotified ⊢
    have hended : Deeds o s m₁.account := hnotified ▸ h
    have hphase₁ : m₁.phase = m.phase := congrArg Account.phase hnotified
    rw [← hphase₁] at hphase
    split
    · exact Run.completes_returning.2 (restartSession_deeds_of_engaged hended hphase mac)
    · exact Run.done_deeds (enter_deeds hended .idle none trivial)

theorem updatePlayer_deeds (h : Deeds o s m.account) (mac state : String) (code : Nat) :
    (m.updatePlayer mac state code).Completes (conduct.under o) s := by
  have hset (state : PlayerState) : Deeds o s (m.setPlayer mac state).account := by
    rwa [account_setPlayer]
  rw [updatePlayer]
  split
  · exact Run.done_deeds h
  · rw [Run.completes_map, playerStopped]
    split
    · exact Run.completes_returning.2 (Run.command_deeds ((hset _).command trivial))
    · split
      · exact Run.done_deeds h
      · exact endSession_deeds (m := m.setPlayer mac .stopped) (hset _) _ _ _
  · exact Run.done_deeds (hset _)

/-! ## Reports -/

theorem endPreempted_deeds (h : Deeds o s m.account) :
    m.endPreempted.Completes (conduct.under o) s := by
  rw [endPreempted]
  split
  · dsimp only
    split
    case h_1 p _ =>
      apply Run.command_deeds
      rw [account_notifyError]
      exact h.command trivial
    case h_2 => exact Run.done_deeds (m := (m.setPreempting none).setActive none) h
  · exact Run.done_deeds h

theorem considerRequest_deeds (h : Deeds o s m.account) (mac name : String) :
    (m.considerRequest mac name).Completes (conduct.under o) s := by
  rw [considerRequest]
  split
  · refine Run.andThen_deeds (endPreempted_deeds h) fun _ _ h => ?_
    exact Run.completes_returning.2 (applyDecision_deeds h .accept)
  · apply Run.done_deeds
    rw [account_notifyRequest]
    exact h

/-- A service that is not wanted turns peers away. -/
theorem turnAway_deeds (h : Deeds o s m.account) :
    (m.command (.acceptClientConnection .reject)).Completes (conduct.under o) s :=
  Run.command_deeds (h.command trivial)

/-- A request is negotiated; one that came with a launch is so at once. -/
theorem connectionRequested_deeds_of_enabled (henabled : m.gate.enabled = true)
    (hasked : Deeds o s (m.account.enter (if m.phase = .directLaunchRequested then
      .directLaunchConnecting else .connecting)))
    (mac name : String) : (m.connectionRequested mac name).Completes (conduct.under o) s := by
  rw [connectionRequested, if_neg (by rw [henabled]; decide)]
  dsimp only
  apply considerRequest_deeds
  have hpreempting (source : Phase) : (if source = .playerLaunched then
      m.setPreempting (some ⟨mac, name⟩) else m).account = m.account := by
    split <;> rfl
  split
  case isTrue hphase =>
    rw [if_pos hphase] at hasked
    rwa [account_enter, hpreempting]
  case isFalse hphase =>
    rw [if_neg hphase] at hasked
    rwa [account_enter, hpreempting]

theorem connectionRequested_deeds (h : Deeds o s m.account)
    (hphase : m.phase ≠ .directLaunchRequested) (mac name : String) :
    (m.connectionRequested mac name).Completes (conduct.under o) s := by
  cases henabled : m.gate.enabled with
  | false =>
    rw [connectionRequested, if_pos (by rw [henabled]; rfl)]
    exact turnAway_deeds h
  | true =>
    -- A launch nobody has asked for waits for its request within one stretch of work only.
    apply connectionRequested_deeds_of_enabled henabled
    rw [if_neg hphase]
    exact h.enter .connecting henabled

theorem directLaunch_deeds (h : Deeds o s m.account) (l : Launch) :
    (m.directLaunch l).Completes (conduct.under o) s := by
  rw [directLaunch]
  split
  · exact turnAway_deeds h
  case isFalse henabled =>
    have henabled' : m.gate.enabled = true := by
      rwa [Bool.not_eq_true, Bool.not_eq_false'] at henabled
    have hpreempting : (if m.phase = .playerLaunched then m.setPreempting (some l.peer)
        else m).account = m.account := by
      split <;> rfl
    dsimp only
    generalize (if m.phase = .playerLaunched then m.setPreempting (some l.peer) else m) = m₁
      at hpreempting ⊢
    apply connectionRequested_deeds_of_enabled
    · rw [enter_gate]
      exact (congrArg (fun a => a.gate.enabled) hpreempting).trans henabled'
    · rw [if_pos (enter_phase ..), account_enter, hpreempting]
      exact h.deed (.directLaunch henabled')

theorem acceptedLaunch_deeds (h : Deeds o s m.account) (l : Launch)
    (ho : o = .call (.report (.launchRequest l true))) :
    (m.acceptedLaunch l).Completes (conduct.under o) s := by
  rw [acceptedLaunch]
  split
  case isTrue hadmits =>
    have hphase : m.account.phase = .connectionAccepted := by
      rw [Bool.and_eq_true, decide_eq_true_eq] at hadmits
      exact hadmits.1
    dsimp only
    split
    · apply Run.command_deeds
      rw [account_enter]
      exact h.deed (.launch ho hphase (.inr rfl))
    · apply Run.done_deeds
      rw [account_notifyLaunch, account_enter]
      exact h.deed (.launch ho hphase (.inl rfl))
  case isFalse => exact Run.done_deeds h

theorem discoveryRestarted_deeds (h : Deeds o s m.account) :
    m.discoveryRestarted.Completes (conduct.under o) s := by
  rw [discoveryRestarted]
  apply Run.done_deeds
  split
  case isTrue hawaits =>
    split
    case isTrue hactive => exact enter_deeds h .discoverable none ⟨hawaits, hactive⟩
    case isFalse => exact enter_deeds h .idle none trivial
  case isFalse => exact h

theorem wifiChanged_deeds (h : Deeds o s m.account) (state : WifiState) :
    (m.wifiChanged state).Completes (conduct.under o) s := by
  rw [wifiChanged]
  split
  case h_1 radio _ =>
    refine Run.andThen_deeds (suspendDiscovery_deeds (m := { m with radio }) h) ?_
    exact fun _ m h => Run.done_deeds (m := m.armRadioConnect) h
  case h_2 radio _ => exact resumeDiscovery_deeds (m := { m with radio }.disarm .radioConnect) h
  case h_3 radio _ => exact Run.done_deeds (m := { m with radio }) h

theorem powerModeChanged_deeds (h : Deeds o s m.account) (mode : PowerMode) :
    (m.powerModeChanged mode).Completes (conduct.under o) s := by
  rw [powerModeChanged]
  split
  case h_1 power _ => exact Run.done_deeds (m := { m with power }.deferResume) h
  case h_2 stop power _ =>
    have hstopped : (if stop then (({ m with power }.disarm .connectionAccept).disarm
        .radioConnect).suspendDiscovery else .done (({ m with power }.disarm
        .connectionAccept).disarm .radioConnect) ()).Completes (conduct.under o) s := by
      split
      · exact suspendDiscovery_deeds h
      · exact Run.done_deeds h
    refine Run.andThen_deeds hstopped fun s m h => Run.done_deeds ?_
    rw [fallAsleep]
    split
    · exact enter_deeds h .idle none trivial
    · exact h
  case h_3 power _ => exact Run.done_deeds (m := { m with power }) h

theorem receive_deeds (h : Deeds o s m.account) (hphase : m.phase ≠ .directLaunchRequested)
    (r : Report) (ho : o = .call (.report r)) :
    (m.receive r).Completes (conduct.under o) s := by
  cases r with
  | connectionRequest mac name => exact connectionRequested_deeds h hphase mac name
  | launchRequest l reported =>
    cases reported with
    | false => exact directLaunch_deeds h l
    | true => exact acceptedLaunch_deeds h l ho
  | discoveryRestarted => exact discoveryRestarted_deeds h
  | powerModeChanged old new => exact powerModeChanged_deeds h new
  | networkStandbyChanged _ => exact Run.done_deeds h
  | wifiStateChanged state => exact wifiChanged_deeds h state

/-! ## Starting, shutting down and alarms -/

theorem start_deeds (h : Deeds o s m.account) (ho : o = .call .start) :
    m.start.Completes (conduct.under o) s := by
  rw [start]
  refine Run.bind_deeds (refreshFriendlyName_deeds h) fun s m known h => ?_
  have hretried : Deeds o s (if known then m else m.armFriendlyNameRetry).account := by
    split <;> exact h
  dsimp only
  generalize (if known then m else m.armFriendlyNameRetry) = m₁ at hretried ⊢
  split
  case isTrue hwanted =>
    subst ho
    exact Run.completes_returning.2 (Run.completes_map.2 (enable_deeds hwanted hretried))
  case isFalse => exact Run.done_deeds hretried

theorem shutdown_deeds (h : Deeds o s m.account) (ho : o = .call .shutdown) :
    m.shutdown.Completes (conduct.under o) s := by
  unfold shutdown
  dsimp only
  split
  case h_1 => exact Run.done_deeds (m := m.disarmAll.reset) (h.deed (.forget ho))
  case h_2 gate hgate =>
    obtain ⟨hactive, rfl⟩ := Gate.eq_of_deactivate? hgate
    refine Run.andThen_deeds (Run.command_deeds (h.deed (.leave ho hactive))) fun s m h => ?_
    exact Run.done_deeds (m := m.reset) (h.deed (.forget ho))

theorem connectionAcceptExpired_deeds (h : Deeds o s m.account) (id : Nat) :
    (m.connectionAcceptExpired id).Completes (conduct.under o) s := by
  have hclaimed : Deeds o s (m.claim .connectionAccept id).2.account := h
  rw [connectionAcceptExpired]
  generalize m.claim .connectionAccept id = claimed at hclaimed ⊢
  obtain ⟨won, m₁⟩ := claimed
  cases won with
  | false => exact Run.done_deeds hclaimed
  | true =>
    dsimp only at hclaimed ⊢
    split
    case isTrue hasked =>
      have hphase : m₁.phase.isUnengaged = false := by
        rw [Bool.or_eq_true, decide_eq_true_eq, decide_eq_true_eq] at hasked
        rcases hasked with hphase | hphase <;> rw [hphase] <;> rfl
      cases m₁.session.pending with
      | none => exact restartSessionOf_deeds (m := m₁.silencePlayer) hclaimed hphase none
      | some p =>
        refine restartSessionOf_deeds (m := (m₁.notifyError p.peer .timeout).silencePlayer)
          ?_ hphase (some p)
        rw [← m₁.account_notifyError p.peer .timeout] at hclaimed
        exact hclaimed
    case isFalse => exact Run.done_deeds hclaimed

theorem radioConnectExpired_deeds (h : Deeds o s m.account) (id : Nat) :
    (m.radioConnectExpired id).Completes (conduct.under o) s := by
  have hclaimed : Deeds o s (m.claim .radioConnect id).2.account := h
  rw [radioConnectExpired]
  generalize m.claim .radioConnect id = claimed at hclaimed ⊢
  obtain ⟨won, m₁⟩ := claimed
  cases won with
  | false => exact Run.done_deeds hclaimed
  | true =>
    dsimp only at hclaimed ⊢
    split
    · exact resumeDiscovery_deeds hclaimed
    · exact Run.done_deeds hclaimed

theorem retryFriendlyName_deeds (h : Deeds o s m.account) (id : Nat) :
    (m.retryFriendlyName id).Completes (conduct.under o) s := by
  rw [retryFriendlyName_eq]
  split
  · refine Run.bind_deeds (refreshFriendlyName_deeds h) fun s m known h => Run.done_deeds ?_
    split <;> exact h
  · exact Run.done_deeds h

theorem ring_deeds (h : Deeds o s m.account) (a : Timer.Alarm Task) :
    (m.ring a).Completes (conduct.under o) s := by
  rw [ring]
  split
  case h_1 => exact resumeDiscovery_deeds h
  case h_2 kind _ =>
    cases kind with
    | connectionAccept => exact connectionAcceptExpired_deeds h _
    | radioConnect => exact radioConnectExpired_deeds h _
    | friendlyNameRetry => exact retryFriendlyName_deeds h _

theorem perform_deeds (hm : m.account.Settled) (c : Call) :
    (m.perform c).Completes (conduct.under (.call c)) m.account := by
  cases c with
  | start => exact Run.completes_returning.2 (start_deeds .refl rfl)
  | shutdown => exact Run.completes_returning.2 (shutdown_deeds .refl rfl)
  | setEnabled enabled => exact Run.completes_map.2 (setEnabled_deeds .refl enabled rfl)
  | isEnabled | phase => exact Run.done_deeds .refl
  | decide text => exact Run.completes_map.2 (decide_deeds .refl text)
  | stop mac name => exact Run.completes_map.2 (stopConnection_deeds .refl mac name)
  | player mac state code => exact Run.completes_map.2 (updatePlayer_deeds .refl mac state code)
  | backendDiscovery enabled =>
    refine Run.completes_map.2 (Run.completes_returning.2 (Run.command_deeds ?_))
    exact Deeds.refl.command trivial
  | report r => exact Run.completes_returning.2 (receive_deeds .refl hm.1 r rfl)

end Machine

theorem Occurrence.run_deeds (o : Occurrence) {m : Machine} (hm : m.account.Settled) :
    (o.run m).Completes (conduct.under o) m.account := by
  cases o with
  | call c => exact Machine.perform_deeds hm c
  | alarm a =>
    have hstart : Deeds (.alarm a) m.account
        (m.withTimetable (m.watchdogs.timetable.start a)).account := .refl
    unfold run
    dsimp only
    split
    · exact Run.done_deeds hstart
    · exact Run.completes_returning.2 (Machine.ring_deeds hstart a)
  | elapse ms | settle => exact Run.done_deeds .refl

theorem conduct_governs : conduct.Governs where
  fresh := Machine.settled_fresh
  runs _ o hm _ := o.run_deeds hm
  kept hm h := h.keeps (fun _ _ => Account.Settled.deed) hm
  keptOpened hm h := h.keeps (fun _ _ => Account.Settled.deed) hm

/-! ## Runs in which nobody interferes -/

/-- A run in which nobody interferes is one long stretch of work. -/
theorem Run.quietly_deeds {α : Type} {o : Occurrence} {s : Account} {r : Run α}
    (h : r.Completes (conduct.under o) s) (hs : s.Settled) :
    Deeds o s r.quietly.1.account := by
  induction r generalizing s with
  | done m a => exact h
  | issue m c next ih =>
    have hm : m.account.Settled := Deeds.keeps (fun _ _ => Account.Settled.deed) h.1 hs
    exact Relation.ReflTransGen.trans h.1 (ih m (h.2 m hm) hm)

end CastReceiver
