import CastReceiver.Proofs.Commands

/-!
# Advertising

A controller advertises the device from a start of discovery to the next stop, and a restart for a
session counts as a start. The machine marks discovery as running or not; but while a start is put
off after a sleep, a session that ends restarts a discovery that is marked as stopped. It is then
left advertising when the service is switched off before the start comes. In undisturbed runs this
is the only way in which a service that is off may go on advertising.
-/
namespace CastReceiver

/-- What a controller is told about discovery. -/
inductive Notice where
  | start
  | stop
  /-- A restart for a session, while discovery is marked as `running` or not. -/
  | restart (running : Bool)
  deriving DecidableEq

namespace Notice

/-- What a command from a machine with a gate says about discovery. -/
def of? (g : Gate) : Command → Option Notice
  | .restartDiscovery => some start
  | .stopDiscovery => some stop
  | .restartSessionDiscovery _ => some (restart g.active)
  | _ => none

/-- A controller that keeps the last notice in mind, and makes no requests. -/
def take (last : Option Notice) (c : Command) (m : Machine) : Option Notice × Machine :=
  ((of? m.gate c).or last, m)

/-- The device is advertised after the notice. -/
def advertises : Notice → Bool
  | start | restart _ => true
  | stop => false

/-- Discovery is marked as running after the notice. -/
def running : Notice → Bool
  | start => true
  | stop => false
  | restart running => running

end Notice

/-- Discovery is marked as running only if the service is on, and as the last notice has it. -/
structure Gate.Told (last : Option Notice) (g : Gate) : Prop where
  running : g.active = last.any Notice.running
  enabled : g.active = true → g.enabled = true

/-- A run leaves the last notice and the gate in agreement. -/
def Run.Informs {α : Type} (last : Option Notice) (r : Run α) : Prop :=
  let told := r.answeredBy Notice.take last
  told.2.1.gate.Told told.1

namespace Run

variable {α β σ : Type} {last : Option Notice}

@[simp] theorem answeredBy_bind (answer : σ → Command → Machine → σ × Machine) (s : σ) (r : Run α)
    (f : Machine → α → Run β) : (r.bind f).answeredBy answer s =
      (f (r.answeredBy answer s).2.1 (r.answeredBy answer s).2.2).answeredBy answer
        (r.answeredBy answer s).1 := by
  induction r generalizing s with
  | done m a => rfl
  | issue m c next ih => exact ih _ _

/-- A controller that makes no requests does not interfere. -/
theorem answeredBy_take (last : Option Notice) (r : Run α) :
    (r.answeredBy Notice.take last).2 = r.quietly := by
  induction r generalizing last with
  | done m a => rfl
  | issue m c next ih => exact ih m _

@[simp] theorem informs_done {m : Machine} {a : α} :
    (done m a).Informs last ↔ m.gate.Told last := Iff.rfl

theorem informs_bind {r : Run α} {f : Machine → α → Run β} (hr : r.Informs last)
    (hf : ∀ told, r.quietly.1.gate.Told told → (f r.quietly.1 r.quietly.2).Informs told) :
    (r.bind f).Informs last := by
  have hquiet := answeredBy_take last r
  rw [Informs, hquiet] at hr
  rw [Informs, answeredBy_bind, hquiet]
  exact hf _ hr

theorem informs_andThen {r : Run α} {f : Machine → Run β} (hr : r.Informs last)
    (hf : ∀ told, r.quietly.1.gate.Told told → (f r.quietly.1).Informs told) :
    (r.andThen f).Informs last :=
  informs_bind hr hf

theorem informs_map {r : Run α} {f : α → β} (hr : r.Informs last) : (r.map f).Informs last :=
  informs_bind hr fun _ h => h

theorem informs_returning {r : Run α} {b : β} (hr : r.Informs last) :
    (r.returning b).Informs last :=
  informs_map hr

end Run

namespace Machine

variable {m : Machine} {last : Option Notice}

/-- A command that is not about discovery says nothing about it. -/
theorem command_informs {c : Command} (hc : Notice.of? m.gate c = none)
    (h : m.gate.Told last) : (m.command c).Informs last := by
  show m.gate.Told ((Notice.of? m.gate c).or last)
  rwa [hc]

/-! ## Starting and stopping -/

theorem resumeDiscovery_informs (h : m.gate.Told last) : m.resumeDiscovery.Informs last := by
  rw [resumeDiscovery]
  split
  · split <;> exact h
  · split
    case h_1 => exact h
    case h_2 gate hgate =>
      obtain ⟨-, henabled, hactive⟩ := Gate.eq_of_activate? hgate
      have hstarted : gate.Told (some .start) := ⟨hactive, fun _ => henabled⟩
      show Gate.Told (some .start) (Machine.gate (if _ then _ else _))
      split <;> simpa using hstarted

/-- Discovery may be stopped whether the service is on or off. -/
theorem suspendDiscovery_informs (h : m.gate.active = last.any Notice.running) :
    m.suspendDiscovery.Informs last := by
  rw [suspendDiscovery, Gate.deactivate?]
  cases hactive : m.gate.active with
  | false =>
    have hgate : m.gate.Told last := ⟨h, by simp [hactive]⟩
    simpa using hgate
  | true =>
    have hstopped : Gate.Told (some .stop) { m.gate with active := false } := ⟨rfl, by simp⟩
    show Gate.Told (some .stop) (Machine.gate (if _ then _ else _))
    split <;> simpa using hstopped

theorem restartSession_informs (h : m.gate.Told last) (mac : String) :
    (m.restartSession mac).Informs last := by
  rw [restartSession]
  split
  · simpa using h
  · have hrestarted : m.gate.Told (some (.restart m.gate.active)) := ⟨rfl, h.enabled⟩
    show Gate.Told (some (.restart (m.enter .restartingSession).gate.active))
      (m.enter .restartingSession).gate
    simpa using hrestarted

theorem restartSessionOf_informs (h : m.gate.Told last) (pending : Option PendingPeer) :
    (m.restartSessionOf pending).Informs last := by
  cases pending with
  | some p => exact restartSession_informs h p.mac
  | none => simpa [restartSessionOf] using h

theorem refreshFriendlyName_informs (h : m.gate.Told last) :
    m.refreshFriendlyName.Informs last := by
  rw [refreshFriendlyName]
  split
  · exact h
  · split
    · exact h
    · exact Run.informs_returning (command_informs rfl h)

/-! ## Requests -/

theorem enable_informs (h : m.gate.Told last) : m.enable.Informs last := by
  have henabled : Gate.Told last { m.gate with enabled := true } := ⟨h.running, fun _ => rfl⟩
  rw [enable]
  split
  · exact h
  · dsimp only
    split
    · exact henabled
    · split
      · exact henabled
      · exact Run.informs_returning (resumeDiscovery_informs henabled)

theorem disable_informs (h : m.gate.Told last) : m.disable.Informs last := by
  rw [disable]
  split
  · exact h
  · split
    · exact h
    · let m₁ : Machine := { m with gate := { m.gate with enabled := false } }
      have hstopped : m₁.suspendDiscovery.Informs last := suspendDiscovery_informs h.running
      apply Run.informs_andThen hstopped
      intro told htold
      show Gate.Told told (Machine.gate (enter _ .idle))
      rw [enter_gate]
      exact htold

theorem applyDecision_informs (h : m.gate.Told last) (d : Decision) :
    (m.applyDecision d).Informs last := by
  unfold applyDecision
  dsimp only
  have hm : (m.disarm .connectionAccept).gate.Told last := h
  generalize m.disarm .connectionAccept = m₁ at hm ⊢
  have hentered : ∀ phase, ((m₁.adopt m₁.session.pending).enter phase).gate.Told last := by
    intro phase
    simpa using hm
  split
  case h_1 =>
    split
    · exact Run.informs_returning (command_informs rfl (hentered _))
    · exact hentered _
  case h_2 =>
    apply Run.informs_returning
    apply restartSessionOf_informs
    simpa [silencePlayer] using hm
  case h_3 => exact Run.informs_returning (command_informs rfl (hentered _))
  case h_4 => exact Run.informs_returning (command_informs rfl (by simpa using hm))
  case h_5 => exact hm

theorem decide_informs (h : m.gate.Told last) (text : String) :
    (m.decide text).Informs last := by
  rw [decide]
  split
  · exact h
  · exact Run.informs_map (applyDecision_informs h _)

theorem stopConnection_informs (h : m.gate.Told last) (mac name : String) :
    (m.stopConnection mac name).Informs last := by
  rw [stopConnection]
  split
  case h_1 => exact h
  case h_2 =>
    split
    · exact Run.informs_returning (restartSession_informs (by simpa using h) _)
    · exact h
  case h_3 => exact h

theorem endSession_informs (h : m.gate.Told last) (mac name : String) (phase : Phase)
    (reason : StopReason) : (m.endSession mac name phase reason).Informs last := by
  have hm : ((if reason.isFailure then m.notifyError ⟨mac, name⟩ reason else m).disarm
      .connectionAccept).gate.Told last := by
    split <;> exact h
  rw [endSession]
  split
  · exact h
  · dsimp only
    generalize (if reason.isFailure then m.notifyError ⟨mac, name⟩ reason else m).disarm
      .connectionAccept = m₁ at hm ⊢
    split
    · exact Run.informs_returning (restartSession_informs hm mac)
    · simpa using hm

theorem updatePlayer_informs (h : m.gate.Told last) (mac state : String) (code : Nat) :
    (m.updatePlayer mac state code).Informs last := by
  rw [updatePlayer]
  split
  · exact h
  · apply Run.informs_map
    rw [playerStopped]
    split
    · exact Run.informs_returning (command_informs rfl h)
    · split
      · exact h
      · exact endSession_informs (m := m.setPlayer mac .stopped) h _ _ _ _
  · exact h

/-! ## Reports -/

theorem endPreempted_informs (h : m.gate.Told last) : m.endPreempted.Informs last := by
  rw [endPreempted]
  split
  · dsimp only
    split
    · exact command_informs rfl h
    · exact h
  · exact h

theorem considerRequest_informs (h : m.gate.Told last) (mac name : String) :
    (m.considerRequest mac name).Informs last := by
  rw [considerRequest]
  split
  · apply Run.informs_andThen (endPreempted_informs h)
    intro told htold
    exact Run.informs_returning (applyDecision_informs htold .accept)
  · exact h

theorem connectionRequested_informs (h : m.gate.Told last) (mac name : String) :
    (m.connectionRequested mac name).Informs last := by
  rw [connectionRequested]
  split
  · exact command_informs rfl h
  · dsimp only
    have hm : (if m.phase = .playerLaunched then m.setPreempting (some ⟨mac, name⟩)
        else m).gate.Told last := by
      split <;> exact h
    generalize (if m.phase = .playerLaunched then m.setPreempting (some ⟨mac, name⟩) else m) = m₁
      at hm ⊢
    apply considerRequest_informs
    split <;> simpa using hm

theorem directLaunch_informs (h : m.gate.Told last) (l : Launch) :
    (m.directLaunch l).Informs last := by
  rw [directLaunch]
  split
  · exact command_informs rfl h
  · dsimp only
    apply connectionRequested_informs
    rw [enter_gate]
    split <;> exact h

theorem acceptedLaunch_informs (h : m.gate.Told last) (l : Launch) :
    (m.acceptedLaunch l).Informs last := by
  have hm : (((m.setActive (some l.peer)).setPreempting none).enter
      .playerLaunched).gate.Told last := by
    rw [enter_gate]
    exact h
  rw [acceptedLaunch]
  split
  · dsimp only
    split
    · exact command_informs rfl hm
    · exact hm
  · exact h

theorem discoveryRestarted_informs (h : m.gate.Told last) :
    m.discoveryRestarted.Informs last := by
  rw [discoveryRestarted]
  rw [Run.informs_done]
  split
  · simpa using h
  · exact h

theorem wifiChanged_informs (h : m.gate.Told last) (state : WifiState) :
    (m.wifiChanged state).Informs last := by
  rw [wifiChanged]
  split
  case h_1 radio _ =>
    have hstopped : { m with radio }.suspendDiscovery.Informs last :=
      suspendDiscovery_informs h.running
    exact Run.informs_andThen hstopped fun _ htold => htold
  case h_2 => exact resumeDiscovery_informs h
  case h_3 => exact h

theorem fallAsleep_gate : m.fallAsleep.gate = m.gate := by
  rw [fallAsleep]
  split
  · exact enter_gate _ _ _
  · rfl

theorem powerModeChanged_informs (h : m.gate.Told last) (mode : PowerMode) :
    (m.powerModeChanged mode).Informs last := by
  rw [powerModeChanged]
  split
  case h_1 => exact h
  case h_2 stop power _ =>
    let m₁ := ({ m with power }.disarm .connectionAccept).disarm .radioConnect
    have hm : m₁.gate.Told last := h
    have hstopped : (if stop then m₁.suspendDiscovery else .done m₁ ()).Informs last := by
      split
      · exact suspendDiscovery_informs hm.running
      · exact hm
    apply Run.informs_andThen hstopped
    intro told htold
    rwa [Run.informs_done, fallAsleep_gate]
  case h_3 => exact h

theorem receive_informs (h : m.gate.Told last) (r : Report) : (m.receive r).Informs last := by
  cases r with
  | connectionRequest mac name => exact connectionRequested_informs h mac name
  | launchRequest l reported =>
    cases reported with
    | false => exact directLaunch_informs h l
    | true => exact acceptedLaunch_informs h l
  | discoveryRestarted => exact discoveryRestarted_informs h
  | powerModeChanged old new => exact powerModeChanged_informs h new
  | networkStandbyChanged enabled => exact h
  | wifiStateChanged state => exact wifiChanged_informs h state

/-! ## Starting, shutting down and alarms -/

theorem start_informs (h : m.gate.Told last) : m.start.Informs last := by
  rw [start]
  apply Run.informs_bind (refreshFriendlyName_informs h)
  intro told htold
  generalize m.refreshFriendlyName.quietly = r at htold ⊢
  dsimp only
  have hm : (if r.2 then r.1 else r.1.armFriendlyNameRetry).gate.Told told := by
    split <;> exact htold
  generalize (if r.2 then r.1 else r.1.armFriendlyNameRetry) = m₁ at hm ⊢
  split
  · exact Run.informs_returning (Run.informs_map (enable_informs hm))
  · exact hm

/-- Whatever has been said, discovery is stopped before all is forgotten. -/
theorem shutdown_informs (h : m.gate.Told last) : m.shutdown.Informs last := by
  unfold shutdown
  dsimp only
  split
  case h_1 hgate =>
    have hactive : m.gate.active = false := by
      rw [← Bool.not_eq_true]
      intro hactive
      have hstops : m.gate.deactivate? = none := hgate
      simp [Gate.deactivate?, hactive] at hstops
    have hreset : Gate.Told last {} := ⟨hactive.symm.trans h.running, by simp⟩
    exact hreset
  case h_2 =>
    have hreset : Gate.Told (some .stop) {} := ⟨rfl, by simp⟩
    exact hreset

theorem connectionAcceptExpired_informs (h : m.gate.Told last) (id : Nat) :
    (m.connectionAcceptExpired id).Informs last := by
  rw [connectionAcceptExpired]
  have hm : (m.claim .connectionAccept id).2.gate.Told last := h
  generalize m.claim .connectionAccept id = claimed at hm ⊢
  obtain ⟨won, m₁⟩ := claimed
  cases won with
  | false => exact hm
  | true =>
    dsimp only at hm ⊢
    split
    · apply restartSessionOf_informs
      cases m₁.session.pending <;> exact hm
    · exact hm

theorem radioConnectExpired_informs (h : m.gate.Told last) (id : Nat) :
    (m.radioConnectExpired id).Informs last := by
  rw [radioConnectExpired]
  have hm : (m.claim .radioConnect id).2.gate.Told last := h
  generalize m.claim .radioConnect id = claimed at hm ⊢
  obtain ⟨won, m₁⟩ := claimed
  cases won with
  | false => exact hm
  | true =>
    dsimp only at hm ⊢
    split
    · exact resumeDiscovery_informs hm
    · exact hm

theorem retryFriendlyName_informs (h : m.gate.Told last) (id : Nat) :
    (m.retryFriendlyName id).Informs last := by
  rw [retryFriendlyName_eq]
  split
  · apply Run.informs_bind (refreshFriendlyName_informs h)
    intro told htold
    rw [Run.informs_done]
    split <;> exact htold
  · exact h

theorem ring_informs (h : m.gate.Told last) (a : Timer.Alarm Task) :
    (m.ring a).Informs last := by
  rw [ring]
  split
  · exact resumeDiscovery_informs h
  · rename_i kind _
    cases kind with
    | connectionAccept => exact connectionAcceptExpired_informs h _
    | radioConnect => exact radioConnectExpired_informs h _
    | friendlyNameRetry => exact retryFriendlyName_informs h _

theorem perform_informs (h : m.gate.Told last) (c : Call) : (m.perform c).Informs last := by
  cases c with
  | start => exact Run.informs_returning (start_informs h)
  | shutdown => exact Run.informs_returning (shutdown_informs h)
  | setEnabled enabled =>
    cases enabled with
    | false => exact Run.informs_map (disable_informs h)
    | true => exact Run.informs_map (Run.informs_map (enable_informs h))
  | isEnabled | phase => exact h
  | decide text => exact Run.informs_map (decide_informs h text)
  | stop mac name => exact Run.informs_map (stopConnection_informs h mac name)
  | player mac state code => exact Run.informs_map (updatePlayer_informs h mac state code)
  | backendDiscovery enabled =>
    exact Run.informs_map (Run.informs_returning (command_informs rfl h))
  | report r => exact Run.informs_returning (receive_informs h r)

/-! ## Undisturbed runs -/

/-- The last notice after several occurrences. -/
def notice (m : Machine) (last : Option Notice) : List Occurrence → Option Notice
  | [] => last
  | o :: os => (m.undergo o).notice ((o.run m).answeredBy Notice.take last).1 os

end Machine

theorem Occurrence.run_informs {m : Machine} {last : Option Notice} (h : m.gate.Told last)
    (o : Occurrence) : (o.run m).Informs last := by
  cases o with
  | call c => exact Machine.perform_informs h c
  | alarm a =>
    unfold run
    dsimp only
    split
    · exact h
    · apply Run.informs_returning
      exact Machine.ring_informs (m := m.withTimetable (m.watchdogs.timetable.start a)) h a
  | elapse ms | settle => exact h

namespace Machine

variable {m : Machine} {last : Option Notice} {os : List Occurrence}

theorem undergo_told (h : m.gate.Told last) (o : Occurrence) :
    (m.undergo o).gate.Told ((o.run m).answeredBy Notice.take last).1 := by
  rw [undergo, ← Run.answeredBy_take last]
  exact o.run_informs h

theorem undergoes_told (h : m.gate.Told last) (os : List Occurrence) :
    (m.undergoes os).gate.Told (m.notice last os) := by
  induction os generalizing m last with
  | nil => exact h
  | cons o os ih => exact ih (undergo_told h o)

/-- A service that is off goes on advertising exactly if the last that was said about discovery is a
restart for a session while discovery was not running. -/
theorem advertises_iff_of_disabled (settings : SessionSettings) (nameSource : Option NameSource)
    (os : List Occurrence) :
    let m := (World.fresh settings nameSource).machine
    (m.undergoes os).gate.enabled = false →
      ((m.notice none os).any Notice.advertises = true ↔
        m.notice none os = some (.restart false)) := by
  intro m hdisabled
  have hfresh : m.gate.Told none := ⟨rfl, nofun⟩
  have htold := undergoes_told hfresh os
  have hactive : (m.undergoes os).gate.active = false := by
    rw [← Bool.not_eq_true]
    intro hactive
    exact nomatch hdisabled.symm.trans (htold.enabled hactive)
  have hsilent := htold.running.symm.trans hactive
  generalize m.notice none os = last at hsilent ⊢
  rcases last with _ | notice
  · simp
  · cases notice with
    | start => exact nomatch hsilent
    | stop => simp [Notice.advertises]
    | restart running =>
      obtain rfl : running = false := hsilent
      simp [Notice.advertises]

/-- A peer plays; the device falls asleep, and discovery stops; it wakes up, and the player stops
before discovery starts again. -/
def restless : List Occurrence :=
  let powerMode (old new : PowerMode) : Occurrence :=
    .call (.report (.powerModeChanged old new))
  [.call (.setEnabled true), .call (.report (.connectionRequest "aa" "A")),
    .call (.decide "Accept"),
    .call (.report (.launchRequest ⟨default, "aa", "A", default⟩ true)),
    powerMode .on .deepSleep, powerMode .deepSleep .on, .call (.player "aa" "Stopped" 1)]

/-- Without the sleep the session's restart finds discovery running, and it is stopped. -/
theorem silent_when_disabled :
    ∃ os : List Occurrence,
      let m := (World.fresh {} none).machine
      m.AllPossible os ∧ m.notice none os = some (.restart true) ∧
        (m.undergoes (os ++ [.call (.setEnabled false)])).gate.enabled = false ∧
        ¬(m.notice none (os ++ [.call (.setEnabled false)])).any Notice.advertises = true := by
  let os := restless.take 4 ++ restless.drop 6
  have hos : (World.fresh {} none).machine.AllPossible os := by decide +kernel
  have hrestarted : (World.fresh {} none).machine.notice none os = some (.restart true) := by
    decide +kernel
  have hdisabled : ((World.fresh {} none).machine.undergoes
      (os ++ [.call (.setEnabled false)])).gate.enabled = false := by decide +kernel
  have hstopped : (World.fresh {} none).machine.notice none
      (os ++ [.call (.setEnabled false)]) ≠ some (.restart false) := by decide +kernel
  have hsilent := mt (advertises_iff_of_disabled {} none _ hdisabled).1 hstopped
  exact ⟨os, hos, hrestarted, hdisabled, hsilent⟩

/-- The service is switched off before discovery starts again, and goes on advertising. -/
theorem advertises_when_disabled :
    ¬∀ (settings : SessionSettings) (nameSource : Option NameSource) (os : List Occurrence),
      let m := (World.fresh settings nameSource).machine
      m.AllPossible os → (m.undergoes os).gate.enabled = false →
        (m.notice none os).any Notice.advertises = false := by
  intro h
  let os := restless ++ [.call (.setEnabled false)]
  have hos : (World.fresh {} none).machine.AllPossible os := by decide +kernel
  have hdisabled : ((World.fresh {} none).machine.undergoes os).gate.enabled = false := by
    decide +kernel
  have hrestarted : (World.fresh {} none).machine.notice none os = some (.restart false) := by
    decide +kernel
  have hsilent := h {} none os hos hdisabled
  rw [hrestarted] at hsilent
  exact nomatch hsilent

end Machine

end CastReceiver
