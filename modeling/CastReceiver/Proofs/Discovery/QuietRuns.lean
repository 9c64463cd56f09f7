import CastReceiver.Proofs.Discovery.Steadiness

/-!
# Discovery in quiet runs

When nobody interferes while commands are carried out, discovery is never forgotten: whatever order
the operator, the power mode, the radio and the timers act in, a service that is wanted and may run
is running, or something is pending that will start it.
-/
namespace CastReceiver

open Conditions

/-- Network standby is not switched in light sleep, where it would count at once. -/
def Occurrence.RespectsSleep (m : Machine) : Occurrence → Prop
  | .call (.report (.networkStandbyChanged _)) => m.power.mode ≠ .lightSleep
  | _ => True

namespace Machine

/-- Machines to which things happen one after another. -/
inductive QuietlyReachable : Machine → Prop where
  | fresh (settings : SessionSettings) (nameSource : Option NameSource) :
      QuietlyReachable (World.fresh settings nameSource).machine
  | undergo {m : Machine} {o : Occurrence} (h : QuietlyReachable m) (ho : o.Possible m)
      (hsleep : o.RespectsSleep m) : QuietlyReachable (m.undergo o)

variable {m : Machine}

theorem receive_steady (hm : m.conditions.Steady) (r : Report)
    (hsleep : (Occurrence.call (.report r)).RespectsSleep m) :
    (m.receive r).quietly.1.conditions.Steady := by
  cases r with
  | connectionRequest mac name =>
    exact hm.of_untouched (connectionRequested_untouched hm.toOrderly mac name)
  | launchRequest l reported =>
    cases reported with
    | false => exact hm.of_untouched (directLaunch_untouched hm.toOrderly l)
    | true => exact hm.of_untouched (acceptedLaunch_untouched l)
  | discoveryRestarted => exact hm.of_untouched discoveryRestarted_untouched
  | powerModeChanged old new => exact powerModeChanged_steady hm new
  | networkStandbyChanged enabled => exact networkStandbyChanged_steady hm enabled hsleep
  | wifiStateChanged state => exact wifiChanged_steady hm state

theorem call_steady (hm : m.conditions.Steady) (c : Call)
    (hsleep : (Occurrence.call c).RespectsSleep m) :
    (m.undergo (.call c)).conditions.Steady := by
  unfold undergo Occurrence.run perform
  cases c with
  | start =>
    simpa using start_steady hm
  | shutdown => simpa using shutdown_steady hm
  | setEnabled enabled => simpa using setEnabled_steady hm enabled
  | isEnabled | phase => exact hm
  | decide text => simpa using hm.of_untouched (decide_untouched hm.toOrderly text)
  | stop mac name => simpa using hm.of_untouched (stopConnection_untouched hm.toOrderly mac name)
  | player mac state code =>
    simpa using hm.of_untouched (updatePlayer_untouched hm.toOrderly mac state code)
  | backendDiscovery enabled => exact hm
  | report r => simpa using receive_steady hm r hsleep

theorem QuietlyReachable.steady (h : m.QuietlyReachable) : m.conditions.Steady := by
  induction h with
  | fresh settings nameSource => exact .of_disabled Timer.Watchdogs.timely_empty rfl rfl
  | @undergo m o _ ho hsleep ih =>
    cases o with
    | call c => exact call_steady ih c hsleep
    | alarm a => exact alarm_steady ih ho
    | elapse ms => exact ih.of_untouched (untouched_clock _ m.watchdogs.timetable.stopping)
    | settle => exact ih.of_untouched (untouched_clock m.now [])

/-- Discovery runs, or it waits for the radio, and not for ever. -/
def RunsOrWaits (m : Machine) : Prop :=
  m.gate.active = true ∨ m.radio.connecting = true ∧ m.watchdogs.isArmed .radioConnect = true

/-- Discovery runs only where it may, and wherever it may run it does, unless it waits for the end
of a sleep or for the radio, or is about to start. -/
theorem QuietlyReachable.never_forgotten (h : m.QuietlyReachable) :
    (m.gate.active = true →
      m.gate.enabled = true ∧ m.power.isSuspended = false ∧ m.radio.connecting = false) ∧
    (m.phase = .idle → m.gate.active = false) ∧
    (m.gate.enabled = true → m.power.isSuspended = true → m.power.resumesOnWake = true) ∧
    (m.gate.enabled = true → m.power.isSuspended = false → m.power.resumesOnWake = false →
      ¬m.watchdogs.Resumes → m.RunsOrWaits) ∧
    (m.gate.enabled = true → m.power.mode = .on → ¬m.watchdogs.Resumes → m.RunsOrWaits) := by
  have hm := h.steady
  have hruns : m.gate.enabled = true → m.power.isSuspended = false →
      m.power.resumesOnWake = false → ¬m.watchdogs.Resumes → m.RunsOrWaits := by
    intro henabled hawake hflag hresumes
    rcases hm.attended henabled hawake hflag with hactive | ⟨hconnecting, hslot⟩ | hresumes'
    · exact .inl hactive
    · exact .inr ⟨hconnecting, hm.timely.isArmed hslot⟩
    · exact absurd hresumes' hresumes
  refine ⟨hm.active, hm.idle, hm.remembers.asleep, hruns, ?_⟩
  intro henabled hon
  exact hruns henabled (Power.isSuspended_of_on hon) (hm.remembers.awake henabled hon)

/-- The radio becomes busy while discovery runs. -/
theorem never_forgotten_while_connecting :
    ∃ m : Machine, m.QuietlyReachable ∧ m.gate.active = false ∧ m.RunsOrWaits := by
  let m := ((World.fresh {} none).machine.undergo (.call (.setEnabled true))).undergo
    (.call (.report (.wifiStateChanged .connecting)))
  have hm : m.QuietlyReachable :=
    .undergo (.undergo (.fresh {} none) trivial trivial) trivial trivial
  have henabled : m.gate.enabled = true := by decide +kernel
  have hawake : m.power.isSuspended = false := by decide +kernel
  have hflag : m.power.resumesOnWake = false := by decide +kernel
  have hresumes : ¬m.watchdogs.Resumes := by decide +kernel
  have hinactive : m.gate.active = false := by decide +kernel
  exact ⟨m, hm, hinactive, hm.never_forgotten.2.2.2.1 henabled hawake hflag hresumes⟩

end Machine

end CastReceiver
