import CastReceiver.Proofs.Discipline

/-!
# When commands go out

Each command is about a situation: a decision about the phase that it led to, a start of discovery
about everything that allows it. However many requests are made during earlier commands, no command
goes out to a machine that it does not fit. What a run needs for that it looks up in the stretch
that ends with the command, so nothing has to be known about the machine before.
-/
namespace CastReceiver

/-- The command suits the machine that it is issued from. -/
def Command.Fits (m : Machine) : Command → Prop
  | .restartDiscovery => m.gate.enabled = true ∧ m.gate.active = true ∧
      m.power.isSuspended = false ∧ m.radio.connecting = false
  | .stopDiscovery => m.gate.active = false
  | .acceptClientConnection .accept => m.phase = .connectionAccepted
  | .acceptClientConnection .reject => m.phase = .connectionRejected ∨ m.gate.enabled = false
  | .restartSessionDiscovery _ => m.phase = .restartingSession ∧ m.power.isSuspended = false ∧
      m.radio.connecting = false
  | .switchLaunchRequestContext _ => m.phase = .connectionAccepted
  | .beginPlayback l => m.phase = .playerLaunched ∧ m.session.active = some l.peer
  | .flushCurrentSession | .setBackendDiscovery _ | .setFriendlyName _ => True

/-- Commands go out where they fit; what else happens does not matter. -/
def fitting : Discipline Machine where
  view := id
  good _ := True
  allows _ c m := ∀ x ∈ c, x.Fits m

namespace Gate

variable {g g' : Gate}

theorem eq_of_activate? {blocked : Bool} (h : g.activate? blocked = some g') :
    blocked = false ∧ g'.enabled = true ∧ g'.active = true := by
  rw [activate?] at h
  split at h
  case isTrue hstarts =>
    obtain rfl := Option.some.inj h
    simp only [Bool.and_eq_true, Bool.not_eq_true'] at hstarts
    exact ⟨hstarts.2, hstarts.1.1, rfl⟩
  case isFalse => exact nomatch h

/-- Discovery starts only if it is wanted and not running. -/
theorem started_of_activate? {blocked : Bool} (h : g.activate? blocked = some g') :
    g.enabled = true ∧ g.active = false ∧ g' = { g with active := true } := by
  rw [activate?] at h
  split at h
  case isTrue hstarts =>
    simp only [Bool.and_eq_true, Bool.not_eq_true'] at hstarts
    exact ⟨hstarts.1.1, hstarts.1.2, (Option.some.inj h).symm⟩
  case isFalse => exact nomatch h

theorem eq_of_deactivate? (h : g.deactivate? = some g') :
    g.active = true ∧ g' = { g with active := false } := by
  rw [deactivate?] at h
  split at h
  case isTrue hactive => exact ⟨hactive, (Option.some.inj h).symm⟩
  case isFalse => exact nomatch h

theorem inactive_of_deactivate? (h : g.deactivate? = none) : g.active = false := by
  rw [deactivate?] at h
  split at h
  case isTrue => exact nomatch h
  case isFalse hinactive => exact Bool.not_eq_true _ ▸ hinactive

end Gate

namespace Run

variable {α β : Type} {s : Machine}

@[simp] theorem done_fits (m : Machine) (a : α) : (done m a).Completes fitting s :=
  fun _ hc => nomatch hc

theorem bind_fits {r : Run α} {f : Machine → α → Run β} (hr : r.Completes fitting s)
    (hf : ∀ s m a, (f m a).Completes fitting s) : (r.bind f).Completes fitting s :=
  obeys_bind.2 (hr.mono fun s m a _ => hf s m a)

theorem andThen_fits {r : Run α} {f : Machine → Run β} (hr : r.Completes fitting s)
    (hf : ∀ s m, (f m).Completes fitting s) : (r.andThen f).Completes fitting s :=
  bind_fits hr fun s m _ => hf s m

end Run

namespace Machine

variable {m s : Machine}

/-- Putting a command into the journal does not change whether it fits. -/
theorem command_fits {c : Command} (h : c.Fits m) : (m.command c).Completes fitting s := by
  refine Run.obeys_command.2 ⟨fun x hx => ?_, fun m' _ => Run.done_fits m' ()⟩
  obtain rfl := Option.some.inj hx
  exact h

/-! ## Discovery -/

theorem resumeDiscovery_fits : m.resumeDiscovery.Completes fitting s := by
  rw [resumeDiscovery]
  split
  case isTrue => exact Run.done_fits _ _
  case isFalse hfree =>
    rw [Bool.not_eq_true] at hfree
    split
    case h_1 => exact Run.done_fits _ _
    case h_2 gate hgate =>
      obtain ⟨hawake, henabled, hactive⟩ := Gate.eq_of_activate? hgate
      apply command_fits
      split <;> simpa [Command.Fits] using ⟨henabled, hactive, hawake, hfree⟩

theorem suspendDiscovery_fits : m.suspendDiscovery.Completes fitting s := by
  rw [suspendDiscovery]
  split
  case h_1 => exact Run.done_fits _ _
  case h_2 gate hgate =>
    obtain ⟨-, rfl⟩ := Gate.eq_of_deactivate? hgate
    apply command_fits
    split <;> simp [Command.Fits]

theorem restartSession_fits (mac : String) : (m.restartSession mac).Completes fitting s := by
  rw [restartSession]
  split
  case isTrue => exact Run.done_fits _ _
  case isFalse hallowed =>
    apply command_fits
    simpa [Command.Fits] using hallowed

theorem restartSessionOf_fits (pending : Option PendingPeer) :
    (m.restartSessionOf pending).Completes fitting s := by
  cases pending with
  | some p => exact restartSession_fits p.mac
  | none => exact Run.done_fits _ _

theorem refreshFriendlyName_fits : m.refreshFriendlyName.Completes fitting s := by
  rw [refreshFriendlyName]
  split
  · exact Run.done_fits _ _
  · split
    · exact Run.done_fits _ _
    · exact Run.completes_returning.2 (command_fits trivial)

/-! ## Requests -/

theorem enable_fits : m.enable.Completes fitting s := by
  rw [enable]
  split
  · exact Run.done_fits _ _
  · dsimp only
    split
    · exact Run.done_fits _ _
    · split
      · exact Run.done_fits _ _
      · exact Run.completes_returning.2 resumeDiscovery_fits

theorem disable_fits : m.disable.Completes fitting s := by
  rw [disable]
  split
  · exact Run.done_fits _ _
  · split
    · exact Run.done_fits _ _
    · exact Run.andThen_fits suspendDiscovery_fits fun _ _ => Run.done_fits _ _

theorem setEnabled_fits (enabled : Bool) : (m.setEnabled enabled).Completes fitting s := by
  cases enabled with
  | false => exact disable_fits
  | true => exact Run.completes_map.2 enable_fits

/-- A decision goes out from the phase that it has led to. -/
theorem applyDecision_fits (d : Decision) : (m.applyDecision d).Completes fitting s := by
  unfold applyDecision
  dsimp only
  split
  case h_1 =>
    split
    · exact Run.completes_returning.2 (command_fits (enter_phase _ _ _))
    · exact Run.done_fits _ _
  case h_2 => exact Run.completes_returning.2 (restartSessionOf_fits _)
  case h_3 => exact Run.completes_returning.2 (command_fits (enter_phase _ _ _))
  case h_4 => exact Run.completes_returning.2 (command_fits (.inl (enter_phase _ _ _)))
  case h_5 => exact Run.done_fits _ _

theorem decide_fits (text : String) : (m.decide text).Completes fitting s := by
  rw [decide]
  split
  · exact Run.done_fits _ _
  · exact Run.completes_map.2 (applyDecision_fits _)

theorem stopConnection_fits (mac name : String) :
    (m.stopConnection mac name).Completes fitting s := by
  rw [stopConnection]
  split
  case h_1 => exact Run.done_fits _ _
  case h_2 =>
    split
    · exact Run.completes_returning.2 (restartSession_fits _)
    · exact Run.done_fits _ _
  case h_3 => exact Run.done_fits _ _

theorem endSession_fits (mac name : String) (phase : Phase) (reason : StopReason) :
    (m.endSession mac name phase reason).Completes fitting s := by
  rw [endSession]
  split
  · exact Run.done_fits _ _
  · dsimp only
    generalize (if reason.isFailure then m.notifyError ⟨mac, name⟩ reason else m) = m₁
    split
    · exact Run.completes_returning.2 (restartSession_fits mac)
    · exact Run.done_fits _ _

theorem playerStopped_fits (mac : String) (reason : StopReason) :
    (m.playerStopped mac reason).Completes fitting s := by
  rw [playerStopped]
  split
  · exact Run.completes_returning.2 (command_fits trivial)
  · split
    · exact Run.done_fits _ _
    · exact endSession_fits _ _ _ _

theorem updatePlayer_fits (mac state : String) (code : Nat) :
    (m.updatePlayer mac state code).Completes fitting s := by
  rw [updatePlayer]
  split
  · exact Run.done_fits _ _
  · exact Run.completes_map.2 (playerStopped_fits _ _)
  · exact Run.done_fits _ _

/-! ## Reports -/

theorem endPreempted_fits : m.endPreempted.Completes fitting s := by
  rw [endPreempted]
  split
  · dsimp only
    split
    · exact command_fits trivial
    · exact Run.done_fits _ _
  · exact Run.done_fits _ _

theorem considerRequest_fits (mac name : String) :
    (m.considerRequest mac name).Completes fitting s := by
  rw [considerRequest]
  split
  · refine Run.andThen_fits endPreempted_fits fun _ _ => ?_
    exact Run.completes_returning.2 (applyDecision_fits .accept)
  · exact Run.done_fits _ _

/-- A request while the service is off is turned away. -/
theorem turnAway_fits (h : (!m.gate.enabled) = true) :
    (m.command (.acceptClientConnection .reject)).Completes fitting s :=
  command_fits (.inr (by simpa using h))

theorem connectionRequested_fits (mac name : String) :
    (m.connectionRequested mac name).Completes fitting s := by
  rw [connectionRequested]
  split
  case isTrue hdisabled => exact turnAway_fits hdisabled
  case isFalse => exact considerRequest_fits mac name

theorem directLaunch_fits (l : Launch) : (m.directLaunch l).Completes fitting s := by
  rw [directLaunch]
  split
  case isTrue hdisabled => exact turnAway_fits hdisabled
  case isFalse => exact connectionRequested_fits _ _

/-- Playback begins for the peer that has just become the active one. -/
theorem acceptedLaunch_fits (l : Launch) : (m.acceptedLaunch l).Completes fitting s := by
  rw [acceptedLaunch]
  split
  · dsimp only
    split
    · apply command_fits
      refine ⟨enter_phase _ _ _, ?_⟩
      simp [entered, setActive, setPreempting, Phase.forgetsPeers]
    · exact Run.done_fits _ _
  · exact Run.done_fits _ _

theorem wifiChanged_fits (state : WifiState) : (m.wifiChanged state).Completes fitting s := by
  rw [wifiChanged]
  split
  · exact Run.andThen_fits suspendDiscovery_fits fun _ _ => Run.done_fits _ _
  · exact resumeDiscovery_fits
  · exact Run.done_fits _ _

theorem powerModeChanged_fits (mode : PowerMode) :
    (m.powerModeChanged mode).Completes fitting s := by
  rw [powerModeChanged]
  split
  · exact Run.done_fits _ _
  · refine Run.andThen_fits ?_ fun _ _ => Run.done_fits _ _
    split
    · exact suspendDiscovery_fits
    · exact Run.done_fits _ _
  · exact Run.done_fits _ _

theorem receive_fits (r : Report) : (m.receive r).Completes fitting s := by
  cases r with
  | connectionRequest mac name => exact connectionRequested_fits mac name
  | launchRequest l reported =>
    cases reported with
    | false => exact directLaunch_fits l
    | true => exact acceptedLaunch_fits l
  | discoveryRestarted | networkStandbyChanged _ => exact Run.done_fits _ _
  | powerModeChanged old new => exact powerModeChanged_fits new
  | wifiStateChanged state => exact wifiChanged_fits state

/-! ## Starting, shutting down and alarms -/

theorem start_fits : m.start.Completes fitting s := by
  rw [start]
  refine Run.bind_fits refreshFriendlyName_fits fun s m known => ?_
  dsimp only
  generalize (if known then m else m.armFriendlyNameRetry) = m₁
  split
  · exact Run.completes_returning.2 (setEnabled_fits true)
  · exact Run.done_fits _ _

theorem shutdown_fits : m.shutdown.Completes fitting s := by
  unfold shutdown
  dsimp only
  split
  case h_1 => exact Run.done_fits _ _
  case h_2 gate hgate =>
    obtain ⟨-, rfl⟩ := Gate.eq_of_deactivate? hgate
    exact Run.andThen_fits (command_fits rfl) fun _ _ => Run.done_fits _ _

theorem connectionAcceptExpired_fits (id : Nat) :
    (m.connectionAcceptExpired id).Completes fitting s := by
  rw [connectionAcceptExpired]
  split
  · exact Run.done_fits _ _
  · dsimp only
    split
    · exact restartSessionOf_fits _
    · exact Run.done_fits _ _

theorem radioConnectExpired_fits (id : Nat) : (m.radioConnectExpired id).Completes fitting s := by
  rw [radioConnectExpired]
  split
  · exact Run.done_fits _ _
  · split
    · exact resumeDiscovery_fits
    · exact Run.done_fits _ _

theorem retryFriendlyName_fits (id : Nat) : (m.retryFriendlyName id).Completes fitting s := by
  rw [retryFriendlyName_eq]
  split
  · exact Run.bind_fits refreshFriendlyName_fits fun _ _ _ => Run.done_fits _ _
  · exact Run.done_fits _ _

theorem ring_fits (a : Timer.Alarm Task) : (m.ring a).Completes fitting s := by
  rw [ring]
  split
  · exact resumeDiscovery_fits
  · rename_i kind _
    cases kind with
    | connectionAccept => exact connectionAcceptExpired_fits _
    | radioConnect => exact radioConnectExpired_fits _
    | friendlyNameRetry => exact retryFriendlyName_fits _

theorem perform_fits (c : Call) : (m.perform c).Completes fitting s := by
  cases c with
  | start => exact Run.completes_returning.2 start_fits
  | shutdown => exact Run.completes_returning.2 shutdown_fits
  | setEnabled enabled => exact Run.completes_map.2 (setEnabled_fits enabled)
  | isEnabled | phase => exact Run.done_fits _ _
  | decide text => exact Run.completes_map.2 (decide_fits text)
  | stop mac name => exact Run.completes_map.2 (stopConnection_fits mac name)
  | player mac state code => exact Run.completes_map.2 (updatePlayer_fits mac state code)
  | backendDiscovery enabled =>
    exact Run.completes_map.2 (Run.completes_returning.2 (command_fits trivial))
  | report r => exact Run.completes_returning.2 (receive_fits r)

end Machine

theorem Occurrence.run_fits (o : Occurrence) (m s : Machine) :
    (o.run m).Completes fitting s := by
  cases o with
  | call c => exact Machine.perform_fits c
  | alarm a =>
    unfold run
    dsimp only
    split
    · exact Run.done_fits _ _
    · exact Run.completes_returning.2 (Machine.ring_fits a)
  | elapse ms | settle => exact Run.done_fits _ _

/-- Whatever happens to a machine, its commands fit. -/
theorem fitting_governs : fitting.Governs fun _ m => m where
  fresh _ _ := trivial
  runs m o _ _ := o.run_fits m m
  kept _ _ := trivial
  keptOpened _ _ := trivial

namespace World

variable {w : World} {t : Turn}

/-- Whenever a command goes out, also from a run that has waited for another command, it fits the
machine as it is at that moment. -/
theorem Reachable.command_fits_of_turn (h : w.Reachable) (ht : w.Possible t) :
    ∀ c ∈ (w.turn t).1, c.Fits (w.turn t).2.machine :=
  Discipline.reachable_allows fitting_governs h ht

/-- A peer is accepted while discovery is being started, and may play at once. -/
theorem command_fits_of_nested_acceptance :
    ∃ (w : World) (t : Turn), w.waiting.length = 1 ∧
      (w.turn t).1 = some (.acceptClientConnection .accept) ∧
      ∀ c ∈ (w.turn t).1, c.Fits (w.turn t).2.machine := by
  let call (c : Call) : Turn := .happen (.call c)
  let ts := [call (.setEnabled true), call (.report (.connectionRequest "aa" "A"))]
  let w := (fresh {} none).turns ts
  let t := call (.decide "Accept")
  have hw : w.Reachable := (Reachable.fresh {} none).turns (by decide +kernel)
  have hwaiting : w.waiting.length = 1 := by decide +kernel
  have hcommand : (w.turn t).1 = some (.acceptClientConnection .accept) := by decide +kernel
  exact ⟨w, t, hwaiting, hcommand, hw.command_fits_of_turn trivial⟩

end World

end CastReceiver
