import CastReceiver.Proofs.Discovery.Changes

/-!
# Falling asleep

When the device enters a mode that forbids discovery, discovery stops, and the machine remembers to
start it again. The machine only reacts when the mode before did not forbid discovery, and judges
the mode before by the present state of network standby. If network standby is switched off in light
sleep while discovery runs, the mode counts as one that forbids discovery though nothing has been
done about it, and a deeper sleep is not noticed any more.
-/
namespace CastReceiver

namespace Power

variable {p p' : Power} {mode : PowerMode} {enabled : Bool}

theorem isSuspended_change (p : Power) (mode : PowerMode) (enabled : Bool) :
    (p.change mode enabled).2.isSuspended = p.suspends mode := by
  rw [change]
  split
  · split <;> rfl
  · split <;> rfl

/-- A sleep begins only after a mode in which discovery could run, and is remembered. -/
theorem remembers_of_suspend {stop : Bool} (h : p.change mode enabled = (.suspend stop, p')) :
    p.isSuspended = false ∧ (enabled = true → p'.resumesOnWake = true) := by
  rw [change] at h
  split at h
  case isTrue => split at h <;> cases h
  case isFalse =>
    split at h
    case isTrue hsleeps =>
      obtain ⟨-, rfl⟩ := Prod.mk.inj h
      rw [Bool.and_eq_true, Bool.not_eq_true'] at hsleeps
      exact ⟨hsleeps.2, fun henabled => by simp [henabled]⟩
    case isFalse => cases h

end Power

namespace Conditions

/-- Discovery does not run, and is to run again on waking up if it is wanted. -/
def Asleep (c : Conditions) : Prop :=
  c.gate.active = false ∧ (c.gate.enabled = true → c.power.resumesOnWake = true)

instance (c : Conditions) : Decidable c.Asleep :=
  inferInstanceAs (Decidable (_ ∧ _))

/-- Discovery runs only if it is wanted, and sleeps where the power mode forbids it. -/
structure Rested (c : Conditions) : Prop where
  wanted : c.gate.active = true → c.gate.enabled = true
  asleep : c.power.isSuspended = true → c.Asleep

variable {c c' : Conditions}

theorem inactive_of_disabled (hc : c.gate.active = true → c.gate.enabled = true)
    (h : c.gate.enabled = false) : c.gate.active = false := by
  rw [← Bool.not_eq_true]
  exact fun hactive => nomatch h.symm.trans (hc hactive)

/-- Discovery never runs for a service that is off. -/
theorem Step.wanted (h : c.Step c') (hc : c.gate.active = true → c.gate.enabled = true) :
    c'.gate.active = true → c'.gate.enabled = true := by
  cases h with
  | enter | timers | wake | ignore | radio => exact hc
  | activate hgate => exact fun _ => (Gate.eq_of_activate? hgate).2.1
  | enable => exact fun _ => rfl
  | disable | suppress | stop | reset => exact nofun
  | @sleep _ stop _ h =>
    cases stop with
    | true => exact nofun
    | false => exact hc

/-- Only network standby makes discovery run where the power mode forbids it. -/
theorem Step.rested (h : c.Step c') (hc : c.Rested) : c'.Rested := by
  refine ⟨h.wanted hc.wanted, fun hsuspended => ?_⟩
  cases h with
  | enter | timers | radio => exact hc.asleep hsuspended
  | activate hgate => exact nomatch (Gate.eq_of_activate? hgate).1.symm.trans hsuspended
  | enable hsame hremembers =>
    have hasleep := hc.asleep (hsame.symm.trans hsuspended)
    exact ⟨hasleep.1, fun _ => hremembers.asleep rfl hsuspended⟩
  | disable => exact ⟨rfl, nofun⟩
  | @sleep _ stop _ h =>
    have hremembers := (Power.remembers_of_suspend h).2
    have hstop := (Power.isSuspended_of_suspend h).1
    -- Discovery is only told to stop when the service is on; when it is off, none runs.
    cases stop with
    | true => exact ⟨rfl, hremembers⟩
    | false => exact ⟨inactive_of_disabled hc.wanted hstop.symm, hremembers⟩
  | wake h => exact nomatch (Power.isSuspended_of_resume h).symm.trans hsuspended
  | ignore h =>
    obtain ⟨hflag, hbefore⟩ := Power.isSuspended_of_ignore h
    have hasleep := hc.asleep (hbefore hsuspended)
    exact ⟨hasleep.1, fun henabled => hflag.trans (hasleep.2 henabled)⟩
  | suppress | stop => exact ⟨rfl, (hc.asleep hsuspended).2⟩
  | reset => exact nomatch hsuspended

end Conditions

namespace Machine

variable {m : Machine}

/-- A change to a mode that forbids discovery puts discovery to sleep, unless the mode before
counts as one that forbids discovery: then everything stays as it is. -/
theorem undergo_asleep_iff (hm : m.gate.active = true → m.gate.enabled = true) (old : PowerMode)
    {new : PowerMode} (hnew : m.power.suspends new = true) :
    (m.undergo (.call (.report (.powerModeChanged old new)))).conditions.Asleep ↔
      (m.power.isSuspended = true → m.conditions.Asleep) := by
  have hsuspended : (m.power.change new m.gate.enabled).2.isSuspended = true :=
    (Power.isSuspended_change _ _ _).trans hnew
  show ((m.powerModeChanged new).returning Reply.nothing).quietly.1.conditions.Asleep ↔ _
  rw [Run.quietly_returning, powerModeChanged]
  split
  case h_1 power hchange =>
    rw [hchange] at hsuspended
    have hawake := Power.isSuspended_of_resume hchange
    exact absurd (hawake.symm.trans hsuspended) Bool.false_ne_true
  case h_2 stop power hchange =>
    obtain ⟨hawake, hremembers⟩ := Power.remembers_of_suspend hchange
    have hstop := (Power.isSuspended_of_suspend hchange).1
    refine iff_of_true ?_ fun hsleeps => absurd (hawake.symm.trans hsleeps) Bool.false_ne_true
    have hfell : ∀ m' : Machine, m'.conditions.Asleep → m'.fallAsleep.conditions.Asleep := by
      intro m' hasleep
      rw [fallAsleep]
      split
      · rw [conditions_enter]
        exact hasleep
      · exact hasleep
    rw [Run.quietly_andThen, Run.quietly_done]
    apply hfell
    cases stop with
    | true =>
      obtain ⟨phase, hconditions⟩ := suspendDiscovery_conditions
        (m := ({ m with power }.disarm .connectionAccept).disarm .radioConnect)
      rw [if_pos rfl, hconditions]
      exact ⟨rfl, hremembers⟩
    | false =>
      exact ⟨Conditions.inactive_of_disabled (c := m.conditions) hm hstop.symm, hremembers⟩
  case h_3 power hchange =>
    rw [hchange] at hsuspended
    obtain ⟨hflag, hbefore⟩ := Power.isSuspended_of_ignore hchange
    have hflag' : power.resumesOnWake = m.power.resumesOnWake := hflag
    have hsame : Conditions.Asleep { m.conditions with power } ↔ m.conditions.Asleep := by
      unfold Conditions.Asleep
      rw [hflag']
      rfl
    exact hsame.trans ⟨fun hasleep _ => hasleep, fun hasleep => hasleep (hbefore hsuspended)⟩

end Machine

namespace World

variable {w : World} {t : Turn} {ts : List Turn}

theorem wanted_found (hw : w.machine.gate.active = true → w.machine.gate.enabled = true)
    (t : Turn) : (w.found t).gate.active = true → (w.found t).gate.enabled = true := by
  cases t with
  | resume => exact hw
  | happen o =>
    show (o.found w.machine).gate.active = true → (o.found w.machine).gate.enabled = true
    unfold Occurrence.found
    split <;> exact hw

/-- Whatever happens, discovery only runs for a service that is on. -/
theorem Reachable.wanted (hw : w.Reachable) :
    w.machine.gate.active = true → w.machine.gate.enabled = true := by
  induction hw with
  | fresh => exact nofun
  | turn hw t ht ih => exact (hw.steps ht).keeps (fun _ _ hc h => h.wanted hc) (wanted_found ih t)

/-- Network standby is switched off in light sleep. -/
def dropsStandby (w : World) : Turn → Bool
  | .happen (.call (.report (.networkStandbyChanged false))) =>
    w.machine.power.mode = .lightSleep && w.machine.power.networkStandby
  | _ => false

/-- Network standby is never switched off in light sleep. -/
def KeepsStandby (w : World) : List Turn → Prop
  | [] => True
  | t :: ts => w.dropsStandby t = false ∧ (w.turn t).2.KeepsStandby ts

instance decidableKeepsStandby : (w : World) → DecidablePred w.KeepsStandby
  | _, [] => isTrue trivial
  | w, t :: ts =>
    have := decidableKeepsStandby (w.turn t).2 ts
    inferInstanceAs (Decidable (w.dropsStandby t = false ∧ (w.turn t).2.KeepsStandby ts))

theorem rested_found (hw : w.machine.conditions.Rested) (ht : w.dropsStandby t = false) :
    (w.found t).Rested := by
  cases t with
  | resume => exact hw
  | happen o =>
    show (o.found w.machine).Rested
    unfold Occurrence.found
    split
    case h_2 => exact hw
    case h_1 networkStandby =>
      refine ⟨hw.wanted, fun hsuspended => hw.asleep ?_⟩
      change Power.isSuspended { w.machine.power with networkStandby } = true at hsuspended
      show w.machine.power.isSuspended = true
      unfold Power.isSuspended Power.suspends at hsuspended ⊢
      cases hmode : w.machine.power.mode <;> cases networkStandby <;>
        simp_all [dropsStandby]

theorem Reachable.rested (hw : w.Reachable) (hrested : w.machine.conditions.Rested)
    (hts : w.AllPossible ts) (hkept : w.KeepsStandby ts) :
    (w.turns ts).machine.conditions.Rested := by
  induction ts generalizing w with
  | nil => exact hrested
  | cons t ts ih =>
    have hturn : (w.turn t).2.machine.conditions.Rested :=
      (hw.steps hts.1).keeps (fun _ _ hc h => h.rested hc) (rested_found hrested hkept.1)
    exact ih (hw.turn t hts.1) hturn hts.2 hkept.2

/-- After any turns, a change to a mode that forbids discovery puts discovery to sleep, unless
discovery was awake in a mode that counts as one that forbids it already. That does not happen if
network standby has never been switched off in light sleep. -/
theorem asleep_after_change (settings : SessionSettings) (nameSource : Option NameSource)
    (hts : (fresh settings nameSource).AllPossible ts) (old new : PowerMode) :
    let m := ((fresh settings nameSource).turns ts).machine
    let m' := m.undergo (.call (.report (.powerModeChanged old new)))
    m.power.suspends new = true →
      (m'.conditions.Asleep ↔ (m.power.isSuspended = true → m.conditions.Asleep)) ∧
        ((fresh settings nameSource).KeepsStandby ts → m'.conditions.Asleep) := by
  intro m m' hnew
  have hfresh := Reachable.fresh settings nameSource
  have hasleep : m'.conditions.Asleep ↔ (m.power.isSuspended = true → m.conditions.Asleep) :=
    Machine.undergo_asleep_iff (hfresh.turns hts).wanted old hnew
  refine ⟨hasleep, fun hkept => hasleep.2 ?_⟩
  have hrested : (fresh settings nameSource).machine.conditions.Rested := ⟨nofun, nofun⟩
  exact (hfresh.rested hrested hts hkept).asleep

/-- The device stays reachable in light sleep, and then sleeps more deeply. -/
theorem asleep_after_light_sleep :
    ∃ m : Machine, m.gate.active = true ∧ m.power.mode = .lightSleep ∧
      (m.power.isSuspended = true → m.conditions.Asleep) ∧
      (m.undergo (.call (.report (.powerModeChanged .lightSleep .deepSleep)))).conditions.Asleep := by
  let reports (r : Report) : Turn := .happen (.call (.report r))
  let ts : List Turn := [.happen (.call (.setEnabled true)), .resume,
    reports (.networkStandbyChanged true), reports (.powerModeChanged .on .lightSleep)]
  have hts : (fresh {} none).AllPossible ts := by decide +kernel
  have hkept : (fresh {} none).KeepsStandby ts := by decide +kernel
  obtain ⟨hiff, hkeeps⟩ := asleep_after_change {} none hts .lightSleep .deepSleep
    (by decide +kernel)
  exact ⟨_, by decide +kernel, by decide +kernel, hiff.1 (hkeeps hkept), hkeeps hkept⟩

/-- Network standby is switched off in light sleep. The deeper sleep that follows is not noticed,
and discovery goes on. -/
theorem awake_after_dropped_standby :
    ¬∀ w : World, w.Reachable → ∀ old new, w.machine.power.suspends new = true →
      (w.machine.undergo (.call (.report (.powerModeChanged old new)))).conditions.Asleep := by
  intro hall
  let reports (r : Report) : Turn := .happen (.call (.report r))
  let ts : List Turn := [.happen (.call (.setEnabled true)), .resume,
    reports (.networkStandbyChanged true), reports (.powerModeChanged .on .lightSleep),
    reports (.networkStandbyChanged false)]
  have hw : ((fresh {} none).turns ts).Reachable :=
    (Reachable.fresh {} none).turns (by decide +kernel)
  have hasleep := hall _ hw .lightSleep .deepSleep (by decide +kernel)
  exact absurd hasleep (by decide +kernel)

end World

end CastReceiver
