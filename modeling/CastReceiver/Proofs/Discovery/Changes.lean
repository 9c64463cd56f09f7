import CastReceiver.Proofs.Commands
import CastReceiver.Proofs.Discovery.Steadiness
import Mathlib.Logic.Relation

/-!
# How the conditions of discovery change

Whatever requests are made during commands, each stretch of work changes the conditions of
discovery by a few kinds of steps, and each step says what it has looked at. What every step keeps
therefore holds of every world that can be reached.
-/
namespace CastReceiver

namespace Conditions

/-- Discovery stops if it runs, and then no session is advertised any more. -/
def halted (c : Conditions) : Conditions :=
  { c with
    gate := { c.gate with active := false }
    phase := if c.gate.active = true ∧ c.phase = .discoverable then .idle else c.phase }

theorem halted_of_inactive {c : Conditions} (h : c.gate.active = false) : c.halted = c := by
  obtain ⟨⟨enabled, active⟩, power, radio, watchdogs, phase⟩ := c
  obtain rfl : active = false := h
  simp [halted]

/-- A step of a stretch of work, and what it has looked at before. -/
inductive Step (c : Conditions) : Conditions → Prop
  | enter (target : Phase) (h : target = .discoverable → c.gate.active = true) :
      Step c { c with phase := target }
  | timers (watchdogs : Timer.Watchdogs Task) : Step c { c with watchdogs }
  | activate {gate : Gate} (hgate : c.gate.activate? c.power.isSuspended = some gate)
      (hfree : c.radio.connecting = false) : Step c { c with gate }
  /-- The memory of a sleep is used up, or made anew. -/
  | enable {power : Power} (hsuspended : power.isSuspended = c.power.isSuspended)
      (hremembers : power.Remembers true) :
      Step c { c with gate := { c.gate with enabled := true }, power }
  | disable : Step c (halted { c with gate := { c.gate with enabled := false } })
  | sleep {mode : PowerMode} {stop : Bool} {power : Power}
      (h : c.power.change mode c.gate.enabled = (.suspend stop, power)) :
      Step c (if stop then halted { c with power } else { c with power })
  | wake {mode : PowerMode} {power : Power}
      (h : c.power.change mode c.gate.enabled = (.resume, power)) : Step c { c with power }
  | ignore {mode : PowerMode} {power : Power}
      (h : c.power.change mode c.gate.enabled = (.ignore, power)) : Step c { c with power }
  | suppress {state : WifiState} {radio : Radio} (h : c.radio.change state = (.suppress, radio)) :
      Step c (halted { c with radio })
  | radio {radio : Radio} (h : c.radio.connecting = false → radio.connecting = false) :
      Step c { c with radio }
  /-- Discovery stops, and then everything is forgotten. -/
  | stop : Step c { c with gate := { c.gate with active := false } }
  | reset : Step c { c with gate := {}, power := {}, radio := {}, phase := .idle }

/-- What one stretch of work may do. -/
def Steps : Conditions → Conditions → Prop :=
  Relation.ReflTransGen Step

variable {s c c' : Conditions}

theorem Steps.refl : Steps c c := Relation.ReflTransGen.refl

theorem Steps.step (h : Steps s c) (hstep : c.Step c') : Steps s c' := .tail h hstep

theorem Steps.timers (h : Steps s c) (watchdogs : Timer.Watchdogs Task) :
    Steps s { c with watchdogs } :=
  h.step (.timers watchdogs)

/-- What every step keeps is kept by a stretch of work. -/
theorem Steps.keeps {P : Conditions → Prop} (hP : ∀ c c', P c → c.Step c' → P c')
    (h : Steps s c) (hs : P s) : P c := by
  induction h with
  | refl => exact hs
  | tail _ hstep ih => exact hP _ _ ih hstep

end Conditions

open Conditions

/-- Stretches of work change the conditions step by step. -/
def stepping : Discipline Conditions where
  view := Machine.conditions
  good _ := True
  allows s _ t := Steps s t

namespace Run

variable {α β : Type} {s : Conditions} {m : Machine}

theorem done_steps {a : α} (h : Steps s m.conditions) : (done m a).Completes stepping s := h

theorem bind_steps {r : Run α} {f : Machine → α → Run β} (hr : r.Completes stepping s)
    (hf : ∀ s m a, Steps s m.conditions → (f m a).Completes stepping s) :
    (r.bind f).Completes stepping s :=
  obeys_bind.2 (hr.mono hf)

theorem andThen_steps {r : Run α} {f : Machine → Run β} (hr : r.Completes stepping s)
    (hf : ∀ s m, Steps s m.conditions → (f m).Completes stepping s) :
    (r.andThen f).Completes stepping s :=
  bind_steps hr fun s m _ => hf s m

theorem command_steps {c : Command} (h : Steps s m.conditions) :
    (m.command c).Completes stepping s :=
  obeys_command.2 ⟨h, fun _ _ => .refl⟩

end Run

namespace Machine

variable {s : Conditions} {m : Machine}

/-- A phase may be entered at any time in which no session is advertised. -/
theorem steps_enter {target : Phase} {pending : Option PendingPeer} (h : Steps s m.conditions)
    (htarget : target ≠ .discoverable) : Steps s (m.enter target pending).conditions := by
  rw [conditions_enter]
  exact h.step (.enter target fun hdiscoverable => absurd hdiscoverable htarget)

theorem steps_enter_discoverable (h : Steps s m.conditions) (hactive : m.gate.active = true) :
    Steps s (m.enter .discoverable).conditions := by
  rw [conditions_enter]
  exact h.step (.enter .discoverable fun _ => hactive)

/-! ## Discovery -/

theorem resumeDiscovery_steps (h : Steps s m.conditions) :
    m.resumeDiscovery.Completes stepping s := by
  rw [resumeDiscovery]
  split
  case isTrue =>
    apply Run.done_steps
    split
    · exact h
    · exact h.timers _
  case isFalse hfree =>
    split
    case h_1 => exact Run.done_steps h
    case h_2 gate hgate =>
      have hactive := h.step (.activate hgate (Bool.not_eq_true _ ▸ hfree))
      apply Run.command_steps
      split
      · exact steps_enter_discoverable (m := { m with gate }) hactive
          (Gate.eq_of_activate? hgate).2.2
      · exact hactive

theorem conditions_of_deactivate {gate : Gate} (hgate : m.gate.deactivate? = some gate) :
    (if m.phase = .discoverable then enter { m with gate } .idle else { m with gate }).conditions =
      m.conditions.halted := by
  obtain ⟨hactive, rfl⟩ := Gate.eq_of_deactivate? hgate
  have hactive' : m.conditions.gate.active = true := hactive
  split
  case isTrue hphase =>
    have hphase' : m.conditions.phase = .discoverable := hphase
    rw [conditions_enter, halted, if_pos ⟨hactive', hphase'⟩]
    rfl
  case isFalse hphase =>
    have hphase' : m.conditions.phase ≠ .discoverable := hphase
    rw [halted, if_neg fun h => hphase' h.2]
    rfl

theorem suspendDiscovery_steps (h : Steps s m.conditions.halted) :
    m.suspendDiscovery.Completes stepping s := by
  rw [suspendDiscovery]
  split
  case h_1 hgate =>
    have hinactive : m.conditions.gate.active = false := Gate.inactive_of_deactivate? hgate
    rw [halted_of_inactive hinactive] at h
    exact Run.done_steps h
  case h_2 gate hgate =>
    rw [← conditions_of_deactivate hgate] at h
    exact Run.command_steps h

theorem restartSession_steps (h : Steps s m.conditions) (mac : String) :
    (m.restartSession mac).Completes stepping s := by
  rw [restartSession]
  split
  · exact Run.done_steps (steps_enter h (by decide))
  · exact Run.command_steps (steps_enter h (by decide))

theorem restartSessionOf_steps (h : Steps s m.conditions) (pending : Option PendingPeer) :
    (m.restartSessionOf pending).Completes stepping s := by
  cases pending with
  | some p => exact restartSession_steps h p.mac
  | none => exact Run.done_steps (steps_enter h (by decide))

theorem refreshFriendlyName_steps (h : Steps s m.conditions) :
    m.refreshFriendlyName.Completes stepping s := by
  rw [refreshFriendlyName]
  split
  · exact Run.done_steps h
  · split
    · exact Run.done_steps h
    · exact Run.completes_returning.2 (Run.command_steps h)

/-! ## Requests -/

theorem enable_steps (h : Steps s m.conditions) : m.enable.Completes stepping s := by
  rw [enable]
  split
  · exact Run.done_steps h
  · dsimp only
    split
    case h_1 power htake =>
      have hsuspended := Power.isSuspended_of_takeResume htake
      have henabled := h.step (.enable hsuspended (Power.remembers_of_takeResume htake))
      exact Run.done_steps (henabled.timers _)
    case h_2 htake =>
      have htaken := congrArg Prod.fst htake
      split
      case h_1 power hdefer =>
        have hsuspended := Power.isSuspended_eq_of_deferUntilWake hdefer
        have hremembers := Power.remembers_of_deferUntilWake htaken hdefer
        have henabled := h.step (.enable hsuspended hremembers)
        exact Run.done_steps henabled
      case h_2 power hdefer =>
        have hremembers := Power.remembers_of_deferUntilWake htaken hdefer
        rw [(Power.isSuspended_of_deferUntilWake hdefer).2 rfl] at hremembers
        exact Run.completes_returning.2 (resumeDiscovery_steps (h.step (.enable rfl hremembers)))

theorem disable_steps (h : Steps s m.conditions) : m.disable.Completes stepping s := by
  rw [disable]
  split
  · exact Run.done_steps h
  · split
    · exact Run.done_steps h
    · refine Run.andThen_steps (suspendDiscovery_steps (h.step .disable)) fun s m h => ?_
      have hdisarmed : Steps s ((m.disarm .connectionAccept).disarm .radioConnect).conditions :=
        h.timers _
      have hended : Steps s
          (((m.disarm .connectionAccept).disarm .radioConnect).enter .idle).conditions :=
        steps_enter hdisarmed (by decide)
      exact Run.done_steps (m := (enter _ .idle).announceEnabled false) hended

theorem setEnabled_steps (h : Steps s m.conditions) (enabled : Bool) :
    (m.setEnabled enabled).Completes stepping s := by
  cases enabled with
  | false => exact disable_steps h
  | true => exact Run.completes_map.2 (enable_steps h)

theorem applyDecision_steps (h : Steps s m.conditions) (d : Decision) :
    (m.applyDecision d).Completes stepping s := by
  have hdisarmed : Steps s (m.disarm .connectionAccept).conditions := h.timers _
  unfold applyDecision
  dsimp only
  generalize m.disarm .connectionAccept = m at hdisarmed ⊢
  have haccepted : Steps s ((m.adopt m.session.pending).enter .connectionAccepted).conditions := by
    refine steps_enter ?_ (by decide)
    rwa [conditions_adopt]
  have hrejected : Steps s (m.enter .connectionRejected).conditions :=
    steps_enter hdisarmed (by decide)
  split
  case h_1 =>
    split
    · exact Run.completes_returning.2 (Run.command_steps haccepted)
    · exact Run.done_steps haccepted
  case h_2 =>
    exact Run.completes_returning.2 (restartSessionOf_steps
      (m := (m.enter .connectionRejected).silencePlayer) hrejected _)
  case h_3 => exact Run.completes_returning.2 (Run.command_steps haccepted)
  case h_4 => exact Run.completes_returning.2 (Run.command_steps hrejected)
  case h_5 => exact Run.done_steps hdisarmed

theorem decide_steps (h : Steps s m.conditions) (text : String) :
    (m.decide text).Completes stepping s := by
  rw [decide]
  split
  · exact Run.done_steps h
  · exact Run.completes_map.2 (applyDecision_steps h _)

theorem stopConnection_steps (h : Steps s m.conditions) (mac name : String) :
    (m.stopConnection mac name).Completes stepping s := by
  rw [stopConnection]
  split
  case h_1 => exact Run.done_steps h
  case h_2 =>
    split
    · have haborts : Steps s (m.enter .abortingConnection).conditions := steps_enter h (by decide)
      exact Run.completes_returning.2 (restartSession_steps haborts _)
    · exact Run.done_steps h
  case h_3 => exact Run.done_steps h

theorem endSession_steps (h : Steps s m.conditions) (mac name : String) (phase : Phase)
    (reason : StopReason) : (m.endSession mac name phase reason).Completes stepping s := by
  have hdisarmed : Steps s ((if reason.isFailure then m.notifyError ⟨mac, name⟩ reason
      else m).disarm .connectionAccept).conditions := by
    split <;> exact h.timers _
  rw [endSession]
  split
  · exact Run.done_steps h
  · dsimp only
    generalize (if reason.isFailure then m.notifyError ⟨mac, name⟩ reason else m).disarm
      .connectionAccept = m₁ at hdisarmed ⊢
    split
    · exact Run.completes_returning.2 (restartSession_steps hdisarmed mac)
    · exact Run.done_steps (steps_enter hdisarmed (by decide))

theorem updatePlayer_steps (h : Steps s m.conditions) (mac state : String) (code : Nat) :
    (m.updatePlayer mac state code).Completes stepping s := by
  rw [updatePlayer]
  split
  · exact Run.done_steps h
  · rw [Run.completes_map, playerStopped]
    split
    · exact Run.completes_returning.2 (Run.command_steps (m := m.setPlayer mac .stopped) h)
    · split
      · exact Run.done_steps h
      · exact endSession_steps (m := m.setPlayer mac .stopped) h _ _ _ _
  · exact Run.done_steps (m := m.setPlayer mac _) h

/-! ## Reports -/

theorem endPreempted_steps (h : Steps s m.conditions) : m.endPreempted.Completes stepping s := by
  rw [endPreempted]
  split
  · dsimp only
    split
    · exact Run.command_steps
        (m := ((m.setPreempting none).setActive none).notifyError _ .newConnection) h
    · exact Run.done_steps (m := (m.setPreempting none).setActive none) h
  · exact Run.done_steps h

theorem considerRequest_steps (h : Steps s m.conditions) (mac name : String) :
    (m.considerRequest mac name).Completes stepping s := by
  rw [considerRequest]
  split
  · refine Run.andThen_steps (endPreempted_steps h) fun _ _ h => ?_
    exact Run.completes_returning.2 (applyDecision_steps h .accept)
  · exact Run.done_steps (m := m.armConnectionAccept.notifyRequest ⟨mac, name⟩) (h.timers _)

theorem connectionRequested_steps (h : Steps s m.conditions) (mac name : String) :
    (m.connectionRequested mac name).Completes stepping s := by
  rw [connectionRequested]
  split
  · exact Run.command_steps h
  · dsimp only
    apply considerRequest_steps
    have hpreempting : Steps s (if m.phase = .playerLaunched then
        m.setPreempting (some ⟨mac, name⟩) else m).conditions := by
      split <;> exact h
    split <;> exact steps_enter hpreempting (by decide)

theorem directLaunch_steps (h : Steps s m.conditions) (l : Launch) :
    (m.directLaunch l).Completes stepping s := by
  rw [directLaunch]
  split
  · exact Run.command_steps h
  · dsimp only
    apply connectionRequested_steps
    refine steps_enter ?_ (by decide)
    split <;> exact h

theorem acceptedLaunch_steps (h : Steps s m.conditions) (l : Launch) :
    (m.acceptedLaunch l).Completes stepping s := by
  rw [acceptedLaunch]
  split
  · have hlaunched : Steps s (((m.setActive (some l.peer)).setPreempting none).enter
        .playerLaunched).conditions := steps_enter h (by decide)
    dsimp only
    split
    · exact Run.command_steps hlaunched
    · exact Run.done_steps (m := (enter _ .playerLaunched).notifyLaunch l) hlaunched
  · exact Run.done_steps h

theorem discoveryRestarted_steps (h : Steps s m.conditions) :
    m.discoveryRestarted.Completes stepping s := by
  rw [discoveryRestarted]
  apply Run.done_steps
  split
  · split
    case isTrue hactive => exact steps_enter_discoverable h hactive
    case isFalse => exact steps_enter h (by decide)
  · exact h

theorem wifiChanged_steps (h : Steps s m.conditions) (state : WifiState) :
    (m.wifiChanged state).Completes stepping s := by
  rw [wifiChanged]
  split
  case h_1 radio hchange =>
    refine Run.andThen_steps (suspendDiscovery_steps (h.step (.suppress hchange))) ?_
    exact fun _ _ h => Run.done_steps (h.timers _)
  case h_2 radio hchange =>
    have hfree : radio.connecting = false := Radio.connecting_of_change hchange
    have hresolved := h.step (.radio fun _ => hfree)
    exact resumeDiscovery_steps (hresolved.timers _)
  case h_3 radio hchange =>
    have hsame : radio.connecting = m.radio.connecting := Radio.connecting_of_change hchange
    exact Run.done_steps (h.step (.radio hsame.trans))

theorem powerModeChanged_steps (h : Steps s m.conditions) (mode : PowerMode) :
    (m.powerModeChanged mode).Completes stepping s := by
  rw [powerModeChanged]
  split
  case h_1 power hchange => exact Run.done_steps ((h.step (.wake hchange)).timers _)
  case h_2 stop power hchange =>
    let m₁ := ({ m with power }.disarm .connectionAccept).disarm .radioConnect
    have hslept : Steps s (if stop then m₁.conditions.halted else m₁.conditions) :=
      (h.timers m₁.watchdogs).step (.sleep hchange)
    have hstopped : (if stop then m₁.suspendDiscovery else .done m₁ ()).Completes stepping s := by
      cases stop with
      | true => exact suspendDiscovery_steps hslept
      | false => exact Run.done_steps hslept
    refine Run.andThen_steps hstopped fun s m h => Run.done_steps ?_
    rw [fallAsleep]
    split
    · exact steps_enter h (by decide)
    · exact h
  case h_3 power hchange => exact Run.done_steps (h.step (.ignore hchange))

/-! ## Starting, shutting down and alarms -/

theorem start_steps (h : Steps s m.conditions) : m.start.Completes stepping s := by
  rw [start]
  refine Run.bind_steps (refreshFriendlyName_steps h) fun s m known h => ?_
  have hretried : Steps s (if known then m else m.armFriendlyNameRetry).conditions := by
    split
    · exact h
    · exact h.timers _
  dsimp only
  generalize (if known then m else m.armFriendlyNameRetry) = m₁ at hretried ⊢
  split
  · exact Run.completes_returning.2 (setEnabled_steps hretried true)
  · exact Run.done_steps hretried

theorem shutdown_steps (h : Steps s m.conditions) : m.shutdown.Completes stepping s := by
  have hdisarmed : Steps s m.disarmAll.conditions := h.timers _
  unfold shutdown
  dsimp only
  split
  case h_1 => exact Run.done_steps (m := m.disarmAll.reset) (hdisarmed.step .reset)
  case h_2 gate hgate =>
    obtain ⟨-, rfl⟩ := Gate.eq_of_deactivate? hgate
    have hstopped := hdisarmed.step .stop
    refine Run.andThen_steps (Run.command_steps hstopped) fun s m h => ?_
    exact Run.done_steps (m := m.reset) (h.step .reset)

theorem claim_steps (h : Steps s m.conditions) (kind : Timer.WatchdogKind) (id : Nat) :
    Steps s (m.claim kind id).2.conditions :=
  h.timers (m.watchdogs.claim kind id).2

theorem connectionAcceptExpired_steps (h : Steps s m.conditions) (id : Nat) :
    (m.connectionAcceptExpired id).Completes stepping s := by
  have hclaimed := claim_steps h .connectionAccept id
  rw [connectionAcceptExpired]
  generalize m.claim .connectionAccept id = claimed at hclaimed ⊢
  obtain ⟨won, m₁⟩ := claimed
  cases won with
  | false => exact Run.done_steps hclaimed
  | true =>
    dsimp only at hclaimed ⊢
    split
    · cases m₁.session.pending with
      | none => exact restartSessionOf_steps (m := m₁.silencePlayer) hclaimed none
      | some p =>
        exact restartSessionOf_steps (m := (m₁.notifyError p.peer .timeout).silencePlayer)
          hclaimed (some p)
    · exact Run.done_steps hclaimed

theorem radioConnectExpired_steps (h : Steps s m.conditions) (id : Nat) :
    (m.radioConnectExpired id).Completes stepping s := by
  have hclaimed := claim_steps h .radioConnect id
  rw [radioConnectExpired]
  generalize m.claim .radioConnect id = claimed at hclaimed ⊢
  obtain ⟨won, m₁⟩ := claimed
  cases won with
  | false => exact Run.done_steps hclaimed
  | true =>
    dsimp only at hclaimed ⊢
    have hfreed : ∀ action radio, m₁.radio.timeOut = (action, radio) →
        Steps s { m₁.conditions with radio } := by
      intro action radio hresolve
      obtain ⟨-, hfree, -⟩ := Radio.connecting_of_resolve hresolve
      exact hclaimed.step (.radio fun _ => hfree)
    split
    case h_1 radio hresolve =>
      exact resumeDiscovery_steps (m := { m₁ with radio }) (hfreed _ _ hresolve)
    case h_2 radio _ hresolve =>
      exact Run.done_steps (m := { m₁ with radio }) (hfreed _ _ hresolve)

theorem retryFriendlyName_steps (h : Steps s m.conditions) (id : Nat) :
    (m.retryFriendlyName id).Completes stepping s := by
  rw [retryFriendlyName_eq]
  split
  · refine Run.bind_steps (refreshFriendlyName_steps h) fun s m known h => Run.done_steps ?_
    split
    · exact (claim_steps h _ _).timers _
    · exact h
  · exact Run.done_steps (h.timers _)

theorem ring_steps (h : Steps s m.conditions) (a : Timer.Alarm Task) :
    (m.ring a).Completes stepping s := by
  rw [ring]
  split
  case h_1 => exact resumeDiscovery_steps h
  case h_2 kind _ =>
    cases kind with
    | connectionAccept => exact connectionAcceptExpired_steps h _
    | radioConnect => exact radioConnectExpired_steps h _
    | friendlyNameRetry => exact retryFriendlyName_steps h _

end Machine

/-! ## Occurrences -/

/-- The conditions that an occurrence finds: a change of network standby counts as made. -/
def Occurrence.found (m : Machine) : Occurrence → Conditions
  | .call (.report (.networkStandbyChanged networkStandby)) =>
    { m.conditions with power := { m.power with networkStandby } }
  | _ => m.conditions

namespace Machine

variable {m : Machine}

theorem receive_steps (m : Machine) (r : Report) :
    (m.receive r).Completes stepping ((Occurrence.call (.report r)).found m) := by
  cases r with
  | connectionRequest mac name => exact connectionRequested_steps .refl mac name
  | launchRequest l reported =>
    cases reported with
    | false => exact directLaunch_steps .refl l
    | true => exact acceptedLaunch_steps .refl l
  | discoveryRestarted => exact discoveryRestarted_steps .refl
  | networkStandbyChanged _ => exact Run.done_steps .refl
  | powerModeChanged old new => exact powerModeChanged_steps .refl new
  | wifiStateChanged state => exact wifiChanged_steps .refl state

theorem perform_steps (m : Machine) (c : Call) :
    (m.perform c).Completes stepping ((Occurrence.call c).found m) := by
  cases c with
  | start => exact Run.completes_returning.2 (start_steps .refl)
  | shutdown => exact Run.completes_returning.2 (shutdown_steps .refl)
  | setEnabled enabled => exact Run.completes_map.2 (setEnabled_steps .refl enabled)
  | isEnabled | phase => exact Run.done_steps .refl
  | decide text => exact Run.completes_map.2 (decide_steps .refl text)
  | stop mac name => exact Run.completes_map.2 (stopConnection_steps .refl mac name)
  | player mac state code => exact Run.completes_map.2 (updatePlayer_steps .refl mac state code)
  | backendDiscovery enabled =>
    exact Run.completes_map.2 (Run.completes_returning.2 (Run.command_steps .refl))
  | report r => exact Run.completes_returning.2 (receive_steps m r)

end Machine

theorem Occurrence.run_steps (o : Occurrence) (m : Machine) :
    (o.run m).Completes stepping (o.found m) := by
  cases o with
  | call c => exact Machine.perform_steps m c
  | alarm a =>
    have hstart : Steps m.conditions (m.alarmed a).conditions := Steps.refl.timers _
    unfold run
    dsimp only
    split
    · exact Run.done_steps hstart
    · exact Run.completes_returning.2 (Machine.ring_steps hstart a)
  | elapse ms | settle => exact Run.done_steps (Steps.refl.timers _)

theorem stepping_governs : stepping.Governs fun o m => o.found m where
  fresh _ _ := trivial
  runs m o _ _ := o.run_steps m
  kept _ _ := trivial
  keptOpened _ _ := trivial

namespace World

/-- The conditions that a turn sets out from. -/
def found (w : World) (t : Turn) : Conditions :=
  stepping.origin (fun o m => o.found m) w t

/-- Every turn changes the conditions step by step. -/
theorem Reachable.steps {w : World} (hw : w.Reachable) {t : Turn} (ht : w.Possible t) :
    Steps (w.found t) (w.turn t).2.machine.conditions :=
  Discipline.reachable_allows stepping_governs hw ht

end World

end CastReceiver
