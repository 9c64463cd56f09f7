import CastReceiver.Machine.Operations
import CastReceiver.Proofs.Discovery.Timers

/-!
# The conditions of discovery

Discovery depends on the operator, on the power mode and on the radio. It is steady when it runs as
soon as all three allow it, unless something is on its way that will start it. Most of what a
machine does leaves all of this untouched.
-/
namespace CastReceiver

namespace Power

/-- Before sleep and after, the memory of a wanted discovery is right. -/
structure Remembers (p : Power) (enabled : Bool) : Prop where
  asleep : enabled = true → p.isSuspended = true → p.resumesOnWake = true
  awake : enabled = true → p.mode = .on → p.resumesOnWake = false

variable {p : Power} {enabled : Bool}

theorem remembers_disabled : p.Remembers false where
  asleep := nofun
  awake := nofun

theorem isSuspended_of_on (h : p.mode = .on) : p.isSuspended = false := by
  simp [isSuspended, suspends, h]

theorem Remembers.change (h : p.Remembers enabled) (mode : PowerMode) :
    (p.change mode enabled).2.Remembers enabled := by
  rw [Power.change]
  split
  case isTrue hon =>
    subst hon
    split
    case isTrue hwakes =>
      refine ⟨fun _ hsuspended => ?_, fun _ _ => rfl⟩
      exact nomatch hsuspended
    case isFalse hstays =>
      refine ⟨fun _ hsuspended => ?_, fun henabled _ => ?_⟩
      · exact nomatch hsuspended
      · simpa [henabled] using hstays
  case isFalse hon =>
    split
    case isTrue hsleeps =>
      refine ⟨fun henabled _ => ?_, fun _ hmode => absurd hmode hon⟩
      simp [henabled]
    case isFalse hstays =>
      refine ⟨fun henabled hsuspended => ?_, fun _ hmode => absurd hmode hon⟩
      change p.suspends mode = true at hsuspended
      exact h.asleep henabled (by simpa [hsuspended] using hstays)

/-! When the service is enabled, the memory of a sleep is used up, or made while the device
sleeps. -/

section Enabling

variable {p' : Power} {defers : Bool}

theorem remembers_of_takeResume (h : p.takeResume = (true, p')) : p'.Remembers true := by
  rw [takeResume] at h
  split at h
  case isTrue hwakes =>
    obtain ⟨-, rfl⟩ := Prod.mk.inj h
    rw [Bool.and_eq_true, Bool.not_eq_true'] at hwakes
    refine ⟨fun _ hsuspended => ?_, fun _ _ => rfl⟩
    exact nomatch hwakes.2.symm.trans hsuspended
  case isFalse => exact nomatch h

theorem remembers_of_deferUntilWake (htake : p.takeResume.1 = false)
    (h : p.deferUntilWake = (defers, p')) : p'.Remembers true := by
  have hstays : ¬(p.resumesOnWake && !p.isSuspended) = true := by
    intro hwakes
    simp [takeResume, hwakes] at htake
  rw [deferUntilWake] at h
  split at h <;> obtain ⟨-, rfl⟩ := Prod.mk.inj h
  case isTrue hsuspended =>
    refine ⟨fun _ _ => rfl, fun _ hmode => ?_⟩
    exact nomatch (isSuspended_of_on hmode).symm.trans hsuspended
  case isFalse hawake =>
    refine ⟨fun _ hsuspended => absurd hsuspended hawake, fun _ _ => ?_⟩
    simpa [hawake] using hstays

theorem isSuspended_of_takeResume (h : p.takeResume = (true, p')) :
    p'.isSuspended = p.isSuspended := by
  rw [takeResume] at h
  split at h <;> obtain ⟨-, rfl⟩ := Prod.mk.inj h <;> rfl

theorem isSuspended_eq_of_deferUntilWake (h : p.deferUntilWake = (defers, p')) :
    p'.isSuspended = p.isSuspended := by
  rw [deferUntilWake] at h
  split at h <;> obtain ⟨-, rfl⟩ := Prod.mk.inj h <;> rfl

theorem isSuspended_of_deferUntilWake (h : p.deferUntilWake = (defers, p')) :
    p'.isSuspended = defers ∧ (defers = false → p' = p) := by
  rw [deferUntilWake] at h
  split at h <;> obtain ⟨rfl, rfl⟩ := Prod.mk.inj h
  case isTrue hsuspended => exact ⟨hsuspended, nofun⟩
  case isFalse hawake => exact ⟨Bool.not_eq_true _ ▸ hawake, fun _ => rfl⟩

end Enabling

/-! What a change of the mode asks for is what it has found. -/

section Change

variable {mode : PowerMode} {p' : Power}

theorem isSuspended_of_resume (h : p.change mode enabled = (.resume, p')) :
    p'.isSuspended = false := by
  rw [Power.change] at h
  split at h
  case isTrue hon =>
    split at h <;> obtain ⟨-, rfl⟩ := Prod.mk.inj h
    · exact isSuspended_of_on hon
    · exact isSuspended_of_on hon
  case isFalse => split at h <;> exact nomatch h

theorem isSuspended_of_suspend {stop : Bool} (h : p.change mode enabled = (.suspend stop, p')) :
    stop = enabled ∧ p'.isSuspended = true := by
  rw [Power.change] at h
  split at h
  case isTrue => split at h <;> exact nomatch h
  case isFalse =>
    split at h
    case isTrue hsleeps =>
      obtain ⟨hstop, rfl⟩ := Prod.mk.inj h
      rw [Bool.and_eq_true] at hsleeps
      exact ⟨(PowerAction.suspend.inj hstop).symm, hsleeps.1⟩
    case isFalse => exact nomatch h

theorem isSuspended_of_ignore (h : p.change mode enabled = (.ignore, p')) :
    p'.resumesOnWake = p.resumesOnWake ∧ (p'.isSuspended = true → p.isSuspended = true) := by
  rw [Power.change] at h
  split at h
  case isTrue hon =>
    split at h
    case isTrue => exact nomatch h
    case isFalse =>
      obtain ⟨-, rfl⟩ := Prod.mk.inj h
      refine ⟨rfl, fun hsuspended => ?_⟩
      exact nomatch (isSuspended_of_on hon).symm.trans hsuspended
  case isFalse =>
    split at h
    case isTrue => exact nomatch h
    case isFalse hstays =>
      obtain ⟨-, rfl⟩ := Prod.mk.inj h
      refine ⟨rfl, fun hsuspended => ?_⟩
      change p.suspends mode = true at hsuspended
      simpa [hsuspended] using hstays

/-- Network standby matters in light sleep only. -/
theorem isSuspended_withNetworkStandby (h : p.mode ≠ .lightSleep) (networkStandby : Bool) :
    isSuspended { p with networkStandby } = p.isSuspended := by
  unfold isSuspended suspends
  cases hmode : p.mode <;> simp_all

end Change

end Power

namespace Radio

variable {r r' : Radio}

theorem connecting_of_resolve {action : RadioAction} (h : r.resolve = (action, r')) :
    action ≠ .suppress ∧ r'.connecting = false ∧ (action ≠ .resume → r.connecting = false) := by
  rw [resolve] at h
  obtain ⟨rfl, rfl⟩ := Prod.mk.inj h
  cases r.connecting <;> simp

/-- A report of the radio asks for what it has changed. -/
theorem connecting_of_change {state : WifiState} {action : RadioAction}
    (h : r.change state = (action, r')) :
    match action with
    | .suppress => r'.connecting = true
    | .resume => r'.connecting = false
    | .ignore => r'.connecting = r.connecting := by
  unfold change at h
  cases state <;> simp only at h
  case connecting =>
    obtain ⟨rfl, rfl⟩ := Prod.mk.inj h
    rfl
  case unknown =>
    obtain ⟨rfl, rfl⟩ := Prod.mk.inj h
    rfl
  all_goals
    obtain ⟨hsuppress, hresolved, hignored⟩ := connecting_of_resolve h
    cases action
    case ignore => exact hresolved.trans (hignored nofun).symm
    case suppress => exact absurd rfl hsuppress
    case resume => exact hresolved

end Radio

/-- What discovery depends on, and what starts it. -/
structure Conditions where
  gate : Gate
  power : Power
  radio : Radio
  watchdogs : Timer.Watchdogs Task
  phase : Phase

namespace Conditions

/-- Discovery runs only where it may, and no session is advertised without it. -/
structure Orderly (c : Conditions) : Prop where
  timely : c.watchdogs.Timely
  active : c.gate.active = true →
    c.gate.enabled = true ∧ c.power.isSuspended = false ∧ c.radio.connecting = false
  idle : c.phase = .idle → c.gate.active = false
  remembers : c.power.Remembers c.gate.enabled

/-- Discovery runs, or an alarm is pending that will start it. -/
def Attended (c : Conditions) : Prop :=
  c.gate.active = true ∨
    c.radio.connecting = true ∧ (c.watchdogs.slot .radioConnect).isSome = true ∨
    c.watchdogs.Resumes

/-- Discovery is never forgotten. -/
structure Steady (c : Conditions) : Prop extends c.Orderly where
  attended : c.gate.enabled = true → c.power.isSuspended = false → c.power.resumesOnWake = false →
    c.Attended

/-- Nothing happens that discovery depends on, and no alarm is lost that will start it. -/
structure Untouched (c c' : Conditions) : Prop where
  gate : c'.gate = c.gate
  power : c'.power = c.power
  radio : c'.radio = c.radio
  slot : c'.watchdogs.slot .radioConnect = c.watchdogs.slot .radioConnect
  timely : c.watchdogs.Timely → c'.watchdogs.Timely
  resumes : c.watchdogs.Timely → c.watchdogs.Resumes → c'.watchdogs.Resumes
  idle : c'.phase = .idle → c.phase = .idle ∨ c.gate.active = false

variable {c c' c'' : Conditions}

theorem Untouched.refl (c : Conditions) : c.Untouched c where
  gate := rfl
  power := rfl
  radio := rfl
  slot := rfl
  timely h := h
  resumes _ h := h
  idle := .inl

theorem Untouched.trans (h : c.Untouched c') (h' : c'.Untouched c'') : c.Untouched c'' where
  gate := h'.gate.trans h.gate
  power := h'.power.trans h.power
  radio := h'.radio.trans h.radio
  slot := h'.slot.trans h.slot
  timely hc := h'.timely (h.timely hc)
  resumes hc hr := h'.resumes (h.timely hc) (h.resumes hc hr)
  idle hidle := by
    rcases h'.idle hidle with hidle | hactive
    · exact h.idle hidle
    · exact .inr (h.gate ▸ hactive)

theorem Orderly.of_untouched (hc : c.Orderly) (h : c.Untouched c') : c'.Orderly where
  timely := h.timely hc.timely
  active hactive := by
    rw [h.gate] at hactive
    rw [h.gate, h.power, h.radio]
    exact hc.active hactive
  idle hidle := by
    rw [h.gate]
    exact (h.idle hidle).elim hc.idle id
  remembers := by
    rw [h.gate, h.power]
    exact hc.remembers

theorem Steady.of_untouched (hc : c.Steady) (h : c.Untouched c') : c'.Steady where
  toOrderly := hc.toOrderly.of_untouched h
  attended := by
    rw [h.gate, h.power]
    intro henabled hsuspended hflag
    rcases hc.attended henabled hsuspended hflag with hactive | ⟨hconnecting, hslot⟩ | hresumes
    · exact .inl (h.gate ▸ hactive)
    · exact .inr (.inl ⟨h.radio ▸ hconnecting, h.slot ▸ hslot⟩)
    · exact .inr (.inr (h.resumes hc.timely hresumes))

/-- Where discovery does not run, only its memory and its alarms matter. -/
theorem Orderly.of_inactive (htimely : c.watchdogs.Timely) (hactive : c.gate.active = false)
    (hremembers : c.power.Remembers c.gate.enabled) : c.Orderly where
  timely := htimely
  active h := nomatch hactive.symm.trans h
  idle _ := hactive
  remembers := hremembers

/-- Discovery may go on where it was allowed, if it is allowed still. -/
theorem Orderly.of_allowed (hc : c.Orderly) {power : Power} {radio : Radio}
    {watchdogs : Timer.Watchdogs Task} (htimely : watchdogs.Timely)
    (hremembers : power.Remembers c.gate.enabled)
    (hawake : c.power.isSuspended = false → power.isSuspended = false)
    (hfree : c.radio.connecting = false → radio.connecting = false) :
    Orderly { c with power, radio, watchdogs } where
  timely := htimely
  active hactive := by
    obtain ⟨henabled, hsuspended, hconnecting⟩ := hc.active hactive
    exact ⟨henabled, hawake hsuspended, hfree hconnecting⟩
  idle := hc.idle
  remembers := hremembers

/-- A service that is off wants no discovery. -/
theorem Steady.of_disabled (htimely : c.watchdogs.Timely) (henabled : c.gate.enabled = false)
    (hactive : c.gate.active = false) : c.Steady where
  toOrderly := .of_inactive htimely hactive (henabled ▸ Power.remembers_disabled)
  attended h := nomatch henabled.symm.trans h

/-- A device that sleeps waits for the end of its sleep. -/
theorem Steady.of_suspended (htimely : c.watchdogs.Timely) (hactive : c.gate.active = false)
    (hremembers : c.power.Remembers c.gate.enabled) (hsuspended : c.power.isSuspended = true) :
    c.Steady where
  toOrderly := .of_inactive htimely hactive hremembers
  attended _ h := nomatch hsuspended.symm.trans h

/-- A change that nobody has to react to: no sleep begins, and the radio stays as it is. A sleep
may end if its memory is kept. -/
theorem Steady.of_ignored (hc : c.Steady) {power : Power} {radio : Radio}
    (hremembers : power.Remembers c.gate.enabled)
    (hflag : power.resumesOnWake = c.power.resumesOnWake)
    (hsuspended : power.isSuspended = true → c.power.isSuspended = true)
    (hconnecting : radio.connecting = c.radio.connecting) :
    Steady { c with power, radio } where
  toOrderly := by
    apply hc.toOrderly.of_allowed hc.timely hremembers
    · intro hawake
      rw [← Bool.not_eq_true] at hawake ⊢
      exact mt hsuspended hawake
    · exact hconnecting.trans
  attended henabled _ hforgotten := by
    have hforgotten' : c.power.resumesOnWake = false := hflag.symm.trans hforgotten
    have hawake : c.power.isSuspended = false := by
      rw [← Bool.not_eq_true]
      intro hsleeps
      exact nomatch (hc.remembers.asleep henabled hsleeps).symm.trans hforgotten'
    rcases hc.attended henabled hawake hforgotten' with hactive | ⟨hbusy, hslot⟩ | hresumes
    · exact .inl hactive
    · exact .inr (.inl ⟨hconnecting.trans hbusy, hslot⟩)
    · exact .inr (.inr hresumes)

/-- A phase may be entered in which no discovery is expected, or when there is none. -/
theorem untouched_enter {target : Phase} (h : target = .idle → c.gate.active = false) :
    c.Untouched { c with phase := target } where
  gate := rfl
  power := rfl
  radio := rfl
  slot := rfl
  timely h := h
  resumes _ h := h
  idle hidle := .inr (h hidle)

theorem untouched_cancel (kind : Timer.WatchdogKind) (h : kind ≠ .radioConnect) :
    c.Untouched { c with watchdogs := (c.watchdogs.cancel kind).2 } where
  gate := rfl
  power := rfl
  radio := rfl
  slot := by
    rw [Timer.Watchdogs.cancel_slot]
    exact if_neg h.symm
  timely hc := hc.cancel kind
  resumes hc hr := hr.cancel hc.toSound kind
  idle := .inl

theorem untouched_emptySlot (kind : Timer.WatchdogKind) (h : kind ≠ .radioConnect) :
    c.Untouched { c with watchdogs := c.watchdogs.setSlot kind none } where
  gate := rfl
  power := rfl
  radio := rfl
  slot := if_neg h.symm
  timely hc := hc.emptySlot kind
  resumes _ hr := hr
  idle := .inl

theorem untouched_install (kind : Timer.WatchdogKind) (h : kind ≠ .radioConnect) (delay : Nat)
    (period : Option Nat) : c.Untouched { c with watchdogs := (c.watchdogs.install kind
      (c.watchdogs.timetable.add delay period (.watchdog kind))).2 } where
  gate := rfl
  power := rfl
  radio := rfl
  slot := by
    rw [Timer.Watchdogs.install_slot]
    exact if_neg h.symm
  timely hc := hc.install delay period kind fun hkind => absurd hkind h
  resumes hc hr := hr.install delay period hc.toSound kind
  idle := .inl

/-- Time passes, and cancelled alarms are noticed. -/
theorem untouched_clock (now : Nat) (stopping : List Nat) : c.Untouched { c with
    watchdogs := { c.watchdogs with
      timetable := { c.watchdogs.timetable with now, stopping } } } where
  gate := rfl
  power := rfl
  radio := rfl
  slot := rfl
  timely hc := ⟨⟨hc.running, hc.fresh, hc.distinct, hc.taken, hc.owned, hc.prompt⟩, hc.pending⟩
  resumes _ hr := hr
  idle := .inl

theorem untouched_remove (kind : Timer.WatchdogKind) (h : kind ≠ .radioConnect) {id : Nat}
    (hid : ∀ a ∈ c.watchdogs.timetable.alarms, a.id = id → a.task = .watchdog kind) :
    c.Untouched { c with
      watchdogs := { c.watchdogs with timetable := c.watchdogs.timetable.remove id } } where
  gate := rfl
  power := rfl
  radio := rfl
  slot := rfl
  timely hc := hc.remove h hid
  resumes _ hr := hr.remove hid
  idle := .inl

/-- An alarm goes off that does not start discovery. -/
theorem untouched_start {a : Timer.Alarm Task} (ha : a ∈ c.watchdogs.timetable.alarms)
    (hradio : c.watchdogs.slot .radioConnect ≠ some a.id ∨ a.isVoid = true)
    (htask : a.task ≠ .resumeDiscovery) :
    c.Untouched { c with
      watchdogs := { c.watchdogs with timetable := c.watchdogs.timetable.start a } } where
  gate := rfl
  power := rfl
  radio := rfl
  slot := rfl
  timely hc := hc.start ha hradio
  resumes hc hr := hr.start hc.toSound ha htask
  idle := .inl

end Conditions

end CastReceiver
