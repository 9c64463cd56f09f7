import CastReceiver.Proofs.World

/-!
# Operations that do not notice network standby

Network standby only says whether light sleep forbids discovery. Two machines that differ in it are
alike while both, or neither, are in a mode that forbids discovery. An operation goes alike for
them, and keeps them alike, whatever comes back from its commands; only a change of the power mode
may tell them apart.
-/
namespace CastReceiver

/-- The same mode, which is forbidden to both or to neither, and the same memory of a sleep. -/
structure Power.Alike (p q : Power) : Prop where
  mode : q.mode = p.mode
  resumes : q.resumesOnWake = p.resumesOnWake
  suspended : q.isSuspended = p.isSuspended

namespace Power

variable {p q : Power}

@[refl] theorem Alike.refl (p : Power) : p.Alike p := ⟨rfl, rfl, rfl⟩

theorem Alike.takeResume (h : p.Alike q) :
    ∃ q', q.takeResume = (p.takeResume.1, q') ∧ p.takeResume.2.Alike q' := by
  unfold Power.takeResume
  rw [h.resumes, h.suspended]
  split
  · exact ⟨_, rfl, h.mode, rfl, h.suspended⟩
  · exact ⟨q, rfl, h⟩

theorem Alike.deferUntilWake (h : p.Alike q) :
    ∃ q', q.deferUntilWake = (p.deferUntilWake.1, q') ∧ p.deferUntilWake.2.Alike q' := by
  unfold Power.deferUntilWake
  rw [h.suspended]
  split
  · exact ⟨_, rfl, h.mode, rfl, h.suspended⟩
  · exact ⟨q, rfl, h⟩

theorem Alike.withStandby (h : p.Alike q) (networkStandby : Bool) :
    Alike { p with networkStandby } { q with networkStandby } := by
  refine ⟨h.mode, h.resumes, ?_⟩
  unfold isSuspended suspends
  rw [h.mode]

end Power

namespace Machine

def withPower (m : Machine) (power : Power) : Machine := { m with power }

/-- Two machines that differ in nothing but their power, in which they are alike. -/
def Alike (m m' : Machine) : Prop :=
  ∃ p, m.power.Alike p ∧ m' = m.withPower p

variable {m m' m₁ m₁' m₂ m₂' : Machine}

@[refl] theorem Alike.refl (m : Machine) : m.Alike m := ⟨m.power, .refl _, rfl⟩

theorem Alike.power (h : m.Alike m') : m.power.Alike m'.power := by
  obtain ⟨p, hp, rfl⟩ := h
  exact hp

theorem Alike.session (h : m.Alike m') : m'.session = m.session := by
  obtain ⟨p, hp, rfl⟩ := h
  rfl

theorem Alike.phase (h : m.Alike m') : m'.phase = m.phase := by
  obtain ⟨p, hp, rfl⟩ := h
  rfl

theorem Alike.gate (h : m.Alike m') : m'.gate = m.gate := by
  obtain ⟨p, hp, rfl⟩ := h
  rfl

theorem Alike.radio (h : m.Alike m') : m'.radio = m.radio := by
  obtain ⟨p, hp, rfl⟩ := h
  rfl

theorem Alike.ite {c : Prop} [Decidable c] (h₁ : m₁.Alike m₁') (h₂ : m₂.Alike m₂') :
    (if c then m₁ else m₂).Alike (if c then m₁' else m₂') := by
  split
  · exact h₁
  · exact h₂

theorem Alike.enter {target : Phase} {pending : Option PendingPeer} (h : m.Alike m') :
    (m.enter target pending).Alike (m'.enter target pending) := by
  obtain ⟨p, hp, rfl⟩ := h
  refine ⟨p, (enter_power m target pending).symm ▸ hp, ?_⟩
  unfold Machine.enter
  dsimp only
  rw [apply_ite (fun m : Machine => m.withPower p)]
  rfl

theorem Alike.adopt {pending : Option PendingPeer} (h : m.Alike m') :
    (m.adopt pending).Alike (m'.adopt pending) := by
  obtain ⟨p, hp, rfl⟩ := h
  cases pending with
  | none => exact ⟨p, hp, rfl⟩
  | some peer => exact .ite ⟨p, hp, rfl⟩ ⟨p, hp, rfl⟩

theorem Alike.silencePlayer (h : m.Alike m') : m.silencePlayer.Alike m'.silencePlayer := by
  obtain ⟨p, hp, rfl⟩ := h
  exact ⟨p, hp, rfl⟩

theorem Alike.announceEnabled {enabled : Bool} (h : m.Alike m') :
    (m.announceEnabled enabled).Alike (m'.announceEnabled enabled) := by
  obtain ⟨p, hp, rfl⟩ := h
  exact ⟨p, hp, rfl⟩

theorem Alike.notifyLaunch {l : Launch} (h : m.Alike m') :
    (m.notifyLaunch l).Alike (m'.notifyLaunch l) := by
  obtain ⟨p, hp, rfl⟩ := h
  exact ⟨p, hp, rfl⟩

theorem Alike.disarm {kind : Timer.WatchdogKind} (h : m.Alike m') :
    (m.disarm kind).Alike (m'.disarm kind) := by
  obtain ⟨p, hp, rfl⟩ := h
  exact ⟨p, hp, rfl⟩

/-- A claim of a watchdog is decided by the watchdogs alone. -/
theorem Alike.claim (h : m.Alike m') (kind : Timer.WatchdogKind) (id : Nat) :
    ∃ p, m'.claim kind id = ((m.claim kind id).1, (m.claim kind id).2.withPower p) ∧
      (m.claim kind id).2.power.Alike p := by
  obtain ⟨p, hp, rfl⟩ := h
  exact ⟨p, rfl, hp⟩

/-- Nothing is left of what two machines may differ in. -/
theorem Alike.reset (h : m.Alike m') : m.reset.Alike m'.reset := by
  obtain ⟨p, hp, rfl⟩ := h
  exact .refl _

end Machine

/-- Two runs that issue the same commands and end with the same result, as long as what comes back
from the commands is alike. -/
inductive Run.Alike {α : Type} : Run α → Run α → Prop where
  | done {m m' : Machine} {a : α} (h : m.Alike m') : Alike (.done m a) (.done m' a)
  | issue {m m' : Machine} {c : Command} {next next' : Machine → Run α} (h : m.Alike m')
      (hnext : ∀ m m', m.Alike m' → Alike (next m) (next' m')) :
      Alike (.issue m c next) (.issue m' c next')

namespace Run

variable {α β : Type} {r r' r₁ r₁' r₂ r₂' : Run α}

theorem Alike.bind {k k' : Machine → α → Run β} (h : r.Alike r')
    (hk : ∀ m m' a, m.Alike m' → (k m a).Alike (k' m' a)) : (r.bind k).Alike (r'.bind k') := by
  induction h with
  | done h => exact hk _ _ _ h
  | issue h _ ih => exact .issue h ih

theorem Alike.andThen {k k' : Machine → Run β} (h : r.Alike r')
    (hk : ∀ m m', m.Alike m' → (k m).Alike (k' m')) : (r.andThen k).Alike (r'.andThen k') :=
  h.bind fun m m' _ => hk m m'

theorem Alike.map {f : α → β} (h : r.Alike r') : (r.map f).Alike (r'.map f) :=
  h.bind fun _ _ _ h => .done h

theorem Alike.returning {b : β} (h : r.Alike r') : (r.returning b).Alike (r'.returning b) :=
  h.map

theorem Alike.ite {c : Prop} [Decidable c] (h₁ : r₁.Alike r₁') (h₂ : r₂.Alike r₂') :
    (if c then r₁ else r₂).Alike (if c then r₁' else r₂') := by
  split
  · exact h₁
  · exact h₂

theorem Alike.command {m m' : Machine} {c : Command} (h : m.Alike m') :
    (m.command c).Alike (m'.command c) := by
  obtain ⟨p, hp, rfl⟩ := h
  exact .issue ⟨p, hp, rfl⟩ fun _ _ h => .done h

end Run

namespace Machine

variable {m m' : Machine} {mac name : String}

/-! ## Discovery -/

theorem resumeDiscovery_alike (h : m.Alike m') :
    m.resumeDiscovery.Alike m'.resumeDiscovery := by
  obtain ⟨p, hp, rfl⟩ := h
  unfold resumeDiscovery
  refine .ite (.done (.ite ⟨p, hp, rfl⟩ ⟨p, hp, rfl⟩)) ?_
  rw [show (m.withPower p).power.isSuspended = m.power.isSuspended from hp.suspended,
    show (m.withPower p).gate = m.gate from rfl]
  cases m.gate.activate? m.power.isSuspended with
  | none => exact .done ⟨p, hp, rfl⟩
  | some gate =>
    have hactive : Alike { m with gate } { m.withPower p with gate } := ⟨p, hp, rfl⟩
    exact .command (.ite hactive.enter hactive)

theorem suspendDiscovery_alike (h : m.Alike m') :
    m.suspendDiscovery.Alike m'.suspendDiscovery := by
  obtain ⟨p, hp, rfl⟩ := h
  unfold suspendDiscovery
  rw [show (m.withPower p).gate = m.gate from rfl]
  cases m.gate.deactivate? with
  | none => exact .done ⟨p, hp, rfl⟩
  | some gate =>
    have hinactive : Alike { m with gate } { m.withPower p with gate } := ⟨p, hp, rfl⟩
    exact .command (.ite hinactive.enter hinactive)

theorem restartSession_alike (h : m.Alike m') :
    (m.restartSession mac).Alike (m'.restartSession mac) := by
  unfold restartSession
  rw [h.power.suspended, h.radio]
  exact .ite (.done h.enter) (.command h.enter)

theorem restartSessionOf_alike {pending : Option PendingPeer} (h : m.Alike m') :
    (m.restartSessionOf pending).Alike (m'.restartSessionOf pending) := by
  cases pending with
  | some p => exact restartSession_alike h
  | none => exact .done h.enter

theorem refreshFriendlyName_alike (h : m.Alike m') :
    m.refreshFriendlyName.Alike m'.refreshFriendlyName := by
  obtain ⟨p, hp, rfl⟩ := h
  cases hsource : m.nameSource with
  | none =>
    have hsource' : (m.withPower p).nameSource = none := hsource
    rw [refreshFriendlyName_of_none hsource, refreshFriendlyName_of_none hsource']
    exact .done ⟨p, hp, rfl⟩
  | some source =>
    have hsource' : (m.withPower p).nameSource = some source := hsource
    rw [refreshFriendlyName_of_some hsource, refreshFriendlyName_of_some hsource',
      show (m.withPower p).lookups = m.lookups from rfl]
    cases source m.lookups with
    | none => exact .done ⟨p, hp, rfl⟩
    | some name => exact .returning (.command ⟨p, hp, rfl⟩)

/-! ## Requests -/

/-- What is left of an earlier sleep is alike, so both start discovery, or both put it off. -/
theorem enable_alike (h : m.Alike m') : m.enable.Alike m'.enable := by
  obtain ⟨p, hp, rfl⟩ := h
  unfold enable
  refine .ite (.done ⟨p, hp, rfl⟩) ?_
  have hon : Alike ({ m with gate := { m.gate with enabled := true } }.announceEnabled true)
      ({ m.withPower p with gate := { (m.withPower p).gate with enabled := true } }.announceEnabled
        true) := ⟨p, hp, rfl⟩
  dsimp only
  generalize { m with gate := { m.gate with enabled := true } }.announceEnabled true = m₁ at *
  generalize { m.withPower p with gate := { (m.withPower p).gate with enabled := true }
    }.announceEnabled true = m₁' at *
  obtain ⟨taken', htakes, htaken⟩ := hon.power.takeResume
  obtain ⟨deferred', hdefers, hdeferred⟩ := hon.power.deferUntilWake
  obtain ⟨q, hq, rfl⟩ := hon
  rw [htakes, hdefers]
  generalize m₁.power.takeResume = taken at *
  generalize m₁.power.deferUntilWake = deferred at *
  obtain ⟨takes, taken⟩ := taken
  obtain ⟨defers, deferred⟩ := deferred
  cases takes with
  | true => exact .done ⟨taken', htaken, rfl⟩
  | false =>
    cases defers with
    | true => exact .done ⟨deferred', hdeferred, rfl⟩
    | false => exact .returning (resumeDiscovery_alike ⟨q, hq, rfl⟩)

theorem disable_alike (h : m.Alike m') : m.disable.Alike m'.disable := by
  obtain ⟨p, hp, rfl⟩ := h
  unfold disable
  refine .ite (.done ⟨p, hp, rfl⟩) (.ite (.done ⟨p, hp, rfl⟩) ?_)
  exact .andThen (suspendDiscovery_alike ⟨p, hp, rfl⟩) fun _ _ h =>
    .done h.disarm.disarm.enter.announceEnabled

theorem setEnabled_alike {enabled : Bool} (h : m.Alike m') :
    (m.setEnabled enabled).Alike (m'.setEnabled enabled) := by
  cases enabled with
  | true => exact (enable_alike h).map
  | false => exact disable_alike h

theorem applyDecision_alike {d : Decision} (h : m.Alike m') :
    (m.applyDecision d).Alike (m'.applyDecision d) := by
  have hdisarmed : (m.disarm .connectionAccept).Alike (m'.disarm .connectionAccept) := h.disarm
  unfold applyDecision
  dsimp only
  generalize m.disarm .connectionAccept = m₁ at *
  generalize m'.disarm .connectionAccept = m₁' at *
  rw [hdisarmed.phase, hdisarmed.session]
  generalize m₁.phase = phase
  cases phase with
  | directLaunchConnecting =>
    cases d with
    | accept =>
      dsimp only
      cases m₁.session.pending.bind PendingPeer.launch? with
      | none => exact .done hdisarmed.adopt.enter
      | some l => exact .returning (.command hdisarmed.adopt.enter)
    | reject => exact .returning (restartSessionOf_alike hdisarmed.enter.silencePlayer)
  | connecting =>
    cases d with
    | accept => exact .returning (.command hdisarmed.adopt.enter)
    | reject => exact .returning (.command hdisarmed.enter)
  | _ => exact .done hdisarmed

theorem decide_alike {text : String} (h : m.Alike m') :
    (m.decide text).Alike (m'.decide text) := by
  unfold decide
  cases Decision.parse? text with
  | none => exact .done h
  | some d => exact (applyDecision_alike h).map

theorem stopConnection_alike (h : m.Alike m') :
    (m.stopConnection mac name).Alike (m'.stopConnection mac name) := by
  unfold stopConnection
  rw [h.phase, h.session]
  generalize m.phase = phase
  cases phase with
  | connectionAccepted => exact .ite (restartSession_alike h.enter).returning (.done h)
  | _ => exact .done h

theorem endSession_alike {phase : Phase} {reason : StopReason} (h : m.Alike m') :
    (m.endSession mac name phase reason).Alike (m'.endSession mac name phase reason) := by
  have htold : ((if reason.isFailure then m.notifyError ⟨mac, name⟩ reason else m).disarm
      .connectionAccept).Alike ((if reason.isFailure then m'.notifyError ⟨mac, name⟩ reason
        else m').disarm .connectionAccept) := by
    obtain ⟨p, hp, rfl⟩ := h
    split <;> exact ⟨p, hp, rfl⟩
  unfold endSession
  refine .ite (.done h) ?_
  dsimp only
  rw [htold.gate]
  exact .ite (restartSession_alike htold).returning (.done htold.enter)

theorem playerStopped_alike {reason : StopReason} (h : m.Alike m') :
    (m.playerStopped mac reason).Alike (m'.playerStopped mac reason) := by
  obtain ⟨p, hp, rfl⟩ := h
  unfold playerStopped
  refine .ite (.returning (.command ⟨p, hp, rfl⟩)) (.ite (.done ⟨p, hp, rfl⟩) ?_)
  exact endSession_alike ⟨p, hp, rfl⟩

theorem updatePlayer_alike {state : String} {code : Nat} (h : m.Alike m') :
    (m.updatePlayer mac state code).Alike (m'.updatePlayer mac state code) := by
  unfold updatePlayer
  cases PlayerState.parse? state with
  | none => exact .done h
  | some state =>
    have hset : (m.setPlayer mac state).Alike (m'.setPlayer mac state) := by
      obtain ⟨p, hp, rfl⟩ := h
      exact ⟨p, hp, rfl⟩
    cases state with
    | stopped => exact (playerStopped_alike h).map
    | _ => exact .done hset

/-! ## Reports -/

theorem endPreempted_alike (h : m.Alike m') : m.endPreempted.Alike m'.endPreempted := by
  obtain ⟨p, hp, rfl⟩ := h
  unfold endPreempted
  refine .ite ?_ (.done ⟨p, hp, rfl⟩)
  rw [show (m.withPower p).session = m.session from rfl]
  cases m.session.active with
  | some old => exact .command ⟨p, hp, rfl⟩
  | none => exact .done ⟨p, hp, rfl⟩

theorem considerRequest_alike (h : m.Alike m') :
    (m.considerRequest mac name).Alike (m'.considerRequest mac name) := by
  obtain ⟨p, hp, rfl⟩ := h
  unfold considerRequest
  refine .ite ?_ (.done ⟨p, hp, rfl⟩)
  exact .andThen (endPreempted_alike ⟨p, hp, rfl⟩) fun _ _ h => (applyDecision_alike h).returning

/-- A peer that asks while another plays is noted as the preempting one. -/
theorem preempted_alike (p : Peer) (h : m.Alike m') :
    (if m.phase = .playerLaunched then m.setPreempting (some p) else m).Alike
      (if m'.phase = .playerLaunched then m'.setPreempting (some p) else m') := by
  obtain ⟨q, hq, rfl⟩ := h
  exact .ite ⟨q, hq, rfl⟩ ⟨q, hq, rfl⟩

theorem connectionRequested_alike (h : m.Alike m') :
    (m.connectionRequested mac name).Alike (m'.connectionRequested mac name) := by
  have hasked := preempted_alike ⟨mac, name⟩ h
  unfold connectionRequested
  rw [h.phase] at hasked
  rw [h.gate, h.phase, h.session]
  exact .ite (.command h) (considerRequest_alike (.ite hasked.enter hasked.enter))

theorem directLaunch_alike {l : Launch} (h : m.Alike m') :
    (m.directLaunch l).Alike (m'.directLaunch l) := by
  unfold directLaunch
  rw [h.gate]
  exact .ite (.command h) (connectionRequested_alike (preempted_alike l.peer h).enter)

theorem acceptedLaunch_alike {l : Launch} (h : m.Alike m') :
    (m.acceptedLaunch l).Alike (m'.acceptedLaunch l) := by
  obtain ⟨p, hp, rfl⟩ := h
  unfold acceptedLaunch
  refine .ite ?_ (.done ⟨p, hp, rfl⟩)
  have hseated : ((m.setActive (some l.peer)).setPreempting none).Alike
    (((m.withPower p).setActive (some l.peer)).setPreempting none) := ⟨p, hp, rfl⟩
  dsimp only
  rw [enter_settings, enter_settings]
  exact .ite (.command hseated.enter) (.done hseated.enter.notifyLaunch)

theorem discoveryRestarted_alike (h : m.Alike m') :
    m.discoveryRestarted.Alike m'.discoveryRestarted := by
  unfold discoveryRestarted
  rw [h.gate, h.phase]
  exact .done (.ite h.enter h)

theorem wifiChanged_alike {state : WifiState} (h : m.Alike m') :
    (m.wifiChanged state).Alike (m'.wifiChanged state) := by
  unfold wifiChanged
  rw [h.radio]
  obtain ⟨p, hp, rfl⟩ := h
  generalize m.radio.change state = change
  obtain ⟨action, radio⟩ := change
  cases action with
  | suppress =>
    refine .andThen (suspendDiscovery_alike ⟨p, hp, rfl⟩) fun _ _ h => .done ?_
    obtain ⟨p, hp, rfl⟩ := h
    exact ⟨p, hp, rfl⟩
  | resume => exact resumeDiscovery_alike ⟨p, hp, rfl⟩
  | ignore => exact .done ⟨p, hp, rfl⟩

theorem networkStandbyChanged_alike {enabled : Bool} (h : m.Alike m') :
    (m.networkStandbyChanged enabled).Alike (m'.networkStandbyChanged enabled) := by
  obtain ⟨p, hp, rfl⟩ := h
  exact .done ⟨_, hp.withStandby enabled, rfl⟩

theorem fallAsleep_alike (h : m.Alike m') : m.fallAsleep.Alike m'.fallAsleep := by
  unfold fallAsleep
  rw [h.phase]
  exact .ite h.enter h

/-- A change of the power mode may tell two machines apart, but once it is decided what to do about
it, nothing does any more. -/
theorem powerModeChanged_alike_self (m : Machine) (mode : PowerMode) :
    (m.powerModeChanged mode).Alike (m.powerModeChanged mode) := by
  unfold powerModeChanged
  generalize m.power.change mode m.gate.enabled = change
  obtain ⟨action, power⟩ := change
  cases action with
  | suspend stopDiscovery =>
    refine .andThen ?_ fun _ _ h => .done (fallAsleep_alike h)
    exact .ite (suspendDiscovery_alike (.refl _)) (.done (.refl _))
  | resume | ignore => exact .done (.refl _)

/-! ## Starting, shutting down and alarms -/

theorem start_alike (h : m.Alike m') : m.start.Alike m'.start := by
  unfold start
  refine .bind (refreshFriendlyName_alike h) fun m m' known h => ?_
  have hretried : (if known then m else m.armFriendlyNameRetry).Alike
      (if known then m' else m'.armFriendlyNameRetry) := by
    obtain ⟨p, hp, rfl⟩ := h
    exact .ite ⟨p, hp, rfl⟩ ⟨p, hp, rfl⟩
  obtain ⟨p, hp, hretried⟩ := hretried
  dsimp only
  rw [hretried]
  exact .ite (.returning (setEnabled_alike ⟨p, hp, rfl⟩)) (.done ⟨p, hp, rfl⟩)

theorem shutdown_alike (h : m.Alike m') : m.shutdown.Alike m'.shutdown := by
  have hdisarmed : m.disarmAll.Alike m'.disarmAll := by
    obtain ⟨p, hp, rfl⟩ := h
    exact ⟨p, hp, rfl⟩
  unfold shutdown
  dsimp only
  rw [hdisarmed.gate]
  cases m.disarmAll.gate.deactivate? with
  | none => exact .done hdisarmed.reset
  | some gate =>
    obtain ⟨p, hp, hdisarmed⟩ := hdisarmed
    rw [hdisarmed]
    exact .andThen (.command ⟨p, hp, rfl⟩) fun _ _ h => .done h.reset

theorem connectionAcceptExpired_alike {id : Nat} (h : m.Alike m') :
    (m.connectionAcceptExpired id).Alike (m'.connectionAcceptExpired id) := by
  obtain ⟨p, hclaimed, hp⟩ := h.claim .connectionAccept id
  unfold connectionAcceptExpired
  rw [hclaimed]
  generalize m.claim .connectionAccept id = claimed at *
  obtain ⟨won, m₁⟩ := claimed
  cases won with
  | false => exact .done ⟨p, hp, rfl⟩
  | true =>
    refine .ite ?_ (.done ⟨p, hp, rfl⟩)
    rw [show (m₁.withPower p).session = m₁.session from rfl]
    cases m₁.session.pending with
    | none => exact restartSessionOf_alike ⟨p, hp, rfl⟩
    | some peer => exact restartSessionOf_alike ⟨p, hp, rfl⟩

theorem radioConnectExpired_alike {id : Nat} (h : m.Alike m') :
    (m.radioConnectExpired id).Alike (m'.radioConnectExpired id) := by
  obtain ⟨p, hclaimed, hp⟩ := h.claim .radioConnect id
  unfold radioConnectExpired
  rw [hclaimed]
  generalize m.claim .radioConnect id = claimed at *
  obtain ⟨won, m₁⟩ := claimed
  cases won with
  | false => exact .done ⟨p, hp, rfl⟩
  | true =>
    dsimp only
    rw [show (m₁.withPower p).radio = m₁.radio from rfl]
    generalize m₁.radio.timeOut = expired
    obtain ⟨action, radio⟩ := expired
    cases action with
    | resume => exact resumeDiscovery_alike ⟨p, hp, rfl⟩
    | suppress | ignore => exact .done ⟨p, hp, rfl⟩

theorem retryFriendlyName_alike {id : Nat} (h : m.Alike m') :
    (m.retryFriendlyName id).Alike (m'.retryFriendlyName id) := by
  obtain ⟨p, hp, rfl⟩ := h
  rw [retryFriendlyName_eq, retryFriendlyName_eq]
  refine .ite ?_ (.done ⟨p, hp, rfl⟩)
  refine .bind (refreshFriendlyName_alike ⟨p, hp, rfl⟩) fun _ _ known h => .done ?_
  obtain ⟨p, hp, rfl⟩ := h
  exact .ite ⟨p, hp, rfl⟩ ⟨p, hp, rfl⟩

theorem ring_alike {a : Timer.Alarm Task} (h : m.Alike m') : (m.ring a).Alike (m'.ring a) := by
  unfold ring
  cases a.task with
  | resumeDiscovery => exact resumeDiscovery_alike h
  | watchdog kind =>
    cases kind with
    | connectionAccept => exact connectionAcceptExpired_alike h
    | radioConnect => exact radioConnectExpired_alike h
    | friendlyNameRetry => exact retryFriendlyName_alike h

end Machine

/-! ## Whatever happens -/

/-- The power mode does not change. -/
def Report.keepsMode : Report → Bool
  | .powerModeChanged _ _ => false
  | _ => true

def Occurrence.keepsMode : Occurrence → Bool
  | .call (.report r) => r.keepsMode
  | _ => true

namespace Machine

variable {m m' : Machine}

theorem receive_alike {r : Report} (h : m.Alike m') (hr : r.keepsMode = true ∨ m' = m) :
    (m.receive r).Alike (m'.receive r) := by
  cases r with
  | connectionRequest mac name => exact connectionRequested_alike h
  | launchRequest l reported =>
    cases reported with
    | true => exact acceptedLaunch_alike h
    | false => exact directLaunch_alike h
  | discoveryRestarted => exact discoveryRestarted_alike h
  | powerModeChanged old new =>
    obtain rfl : m' = m := hr.resolve_left Bool.false_ne_true
    exact powerModeChanged_alike_self m' new
  | networkStandbyChanged enabled => exact networkStandbyChanged_alike h
  | wifiStateChanged state => exact wifiChanged_alike h

theorem perform_alike {c : Call} (h : m.Alike m')
    (hc : (Occurrence.call c).keepsMode = true ∨ m' = m) : (m.perform c).Alike (m'.perform c) := by
  cases c with
  | start => exact (start_alike h).returning
  | shutdown => exact (shutdown_alike h).returning
  | setEnabled enabled => exact (setEnabled_alike h).map
  | isEnabled | phase =>
    obtain ⟨p, hp, rfl⟩ := h
    exact .done ⟨p, hp, rfl⟩
  | decide text => exact (decide_alike h).map
  | stop mac name => exact (stopConnection_alike h).map
  | player mac state code => exact (updatePlayer_alike h).map
  | backendDiscovery enabled => exact (Run.Alike.command h).returning.map
  | report r => exact (receive_alike h hc).returning

end Machine

/-- Whatever happens but a change of the power mode, two machines that are alike do the same. One
machine does the same as itself even then. -/
theorem Occurrence.run_alike {m m' : Machine} {o : Occurrence} (h : m.Alike m')
    (ho : o.keepsMode = true ∨ m' = m) : (o.run m).Alike (o.run m') := by
  cases o with
  | call c => exact Machine.perform_alike h ho
  | alarm a =>
    obtain ⟨p, hp, rfl⟩ := h
    refine Run.Alike.ite (.done ⟨p, hp, rfl⟩) ?_
    exact .returning (Machine.ring_alike ⟨p, hp, rfl⟩)
  | elapse ms | settle =>
    obtain ⟨p, hp, rfl⟩ := h
    exact .done ⟨p, hp, rfl⟩

end CastReceiver
