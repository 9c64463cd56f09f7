import CastReceiver.Proofs.Discovery.Operations
import CastReceiver.Proofs.World

/-!
# Discovery stays steady

The operations that change what discovery depends on: the operator wants it or not, the device
sleeps or wakes, the radio is busy or free, and alarms go off. When nobody interferes they lead
from steady conditions to steady ones.
-/
namespace CastReceiver.Machine

open Conditions

variable {m : Machine}

theorem deferResume_steady (hm : m.conditions.Orderly) : m.deferResume.conditions.Steady where
  timely := hm.timely.add 0 none .resumeDiscovery fun _ => rfl
  active := hm.active
  idle := hm.idle
  remembers := hm.remembers
  attended _ _ _ := .inr (.inr (Timer.Watchdogs.resumes_defer hm.timely.toSound))

/-! ## The operator -/

theorem enable_steady (hm : m.conditions.Steady) : m.enable.quietly.1.conditions.Steady := by
  rw [enable]
  split
  case isTrue => exact hm
  case isFalse hdisabled =>
    have hactive : m.gate.active = false := by
      rw [← Bool.not_eq_true]
      exact fun h => hdisabled (hm.active h).1
    dsimp only
    split
    case h_1 power htake =>
      have hremembers := Power.remembers_of_takeResume htake
      exact deferResume_steady (.of_inactive hm.timely hactive hremembers)
    case h_2 htake =>
      have htaken := congrArg Prod.fst htake
      split
      case h_1 power hdefer =>
        have hremembers := Power.remembers_of_deferUntilWake htaken hdefer
        have hsuspended := (Power.isSuspended_of_deferUntilWake hdefer).1
        refine ⟨.of_inactive hm.timely hactive hremembers, fun _ hawake => ?_⟩
        exact nomatch hsuspended.symm.trans hawake
      case h_2 power hdefer =>
        have hremembers := Power.remembers_of_deferUntilWake htaken hdefer
        rw [(Power.isSuspended_of_deferUntilWake hdefer).2 rfl] at hremembers
        rw [Run.quietly_returning]
        exact resumeDiscovery_steady (.of_inactive hm.timely hactive hremembers)

theorem disable_steady (hm : m.conditions.Steady) : m.disable.quietly.1.conditions.Steady := by
  rw [disable]
  split
  · exact hm
  · split
    · exact hm
    · dsimp only
      rw [Run.quietly_andThen]
      show Steady (enter _ .idle).conditions
      rw [conditions_enter]
      have htimely := (hm.timely.cancel .connectionAccept).cancel .radioConnect
      apply Steady.of_disabled <;> simp [conditions, disarm]
      exact htimely

theorem setEnabled_steady (hm : m.conditions.Steady) (enabled : Bool) :
    (m.setEnabled enabled).quietly.1.conditions.Steady := by
  cases enabled with
  | false => exact disable_steady hm
  | true =>
    rw [setEnabled, if_pos rfl, Run.quietly_map]
    exact enable_steady hm

/-! ## The radio -/

theorem wifiChanged_steady (hm : m.conditions.Steady) (state : WifiState) :
    (m.wifiChanged state).quietly.1.conditions.Steady := by
  rw [wifiChanged]
  split
  case h_1 radio hchange =>
    have hconnecting : radio.connecting = true := Radio.connecting_of_change hchange
    rw [Run.quietly_andThen, Run.quietly_done]
    refine ⟨.of_inactive ?_ ?_ ?_, fun _ _ _ => .inr (.inl ⟨?_, armRadioConnect_slot⟩)⟩
    · have htimely : m.watchdogs.Timely := hm.timely
      apply armRadioConnect_timely
      simpa using htimely
    · simp [conditions, armRadioConnect, arm]
    · simpa [conditions, armRadioConnect, arm] using hm.remembers
    · simpa [conditions, armRadioConnect, arm] using hconnecting
  case h_2 radio hchange =>
    have hconnecting := Radio.connecting_of_change hchange
    apply resumeDiscovery_steady
    exact hm.toOrderly.of_allowed (hm.timely.cancel .radioConnect) hm.remembers id
      fun _ => hconnecting
  case h_3 radio hchange =>
    exact hm.of_ignored hm.remembers rfl id (Radio.connecting_of_change hchange)

/-! ## The power mode -/

theorem fallAsleep_steady (htimely : m.watchdogs.Timely) (hactive : m.gate.active = false)
    (hremembers : m.power.Remembers m.gate.enabled) (hsuspended : m.power.isSuspended = true) :
    m.fallAsleep.conditions.Steady := by
  have hm : m.conditions.Steady := .of_suspended htimely hactive hremembers hsuspended
  rw [fallAsleep]
  split
  · rw [conditions_enter]
    exact hm.of_untouched (untouched_enter fun _ => hactive)
  · exact hm

theorem powerModeChanged_steady (hm : m.conditions.Steady) (mode : PowerMode) :
    (m.powerModeChanged mode).quietly.1.conditions.Steady := by
  have hremembers : (m.power.change mode m.gate.enabled).2.Remembers m.gate.enabled :=
    hm.remembers.change mode
  rw [powerModeChanged]
  split
  case h_1 power hchange =>
    rw [hchange] at hremembers
    have hawake := Power.isSuspended_of_resume hchange
    apply deferResume_steady
    exact hm.toOrderly.of_allowed hm.timely hremembers (fun _ => hawake) id
  case h_2 stop power hchange =>
    rw [hchange] at hremembers
    obtain ⟨hstop, hsuspended⟩ := Power.isSuspended_of_suspend hchange
    have htimely := (hm.timely.cancel .connectionAccept).cancel .radioConnect
    dsimp only
    rw [Run.quietly_andThen, Run.quietly_done]
    cases stop with
    | true =>
      rw [if_pos rfl]
      apply fallAsleep_steady <;> simp only [suspendDiscovery_gate, suspendDiscovery_power,
        suspendDiscovery_watchdogs]
      · exact htimely
      · exact hremembers
      · exact hsuspended
    | false =>
      have hactive : m.gate.active = false := by
        rw [← Bool.not_eq_true]
        exact fun h => nomatch hstop.trans (hm.active h).1
      exact fallAsleep_steady htimely hactive hremembers hsuspended
  case h_3 power hchange =>
    rw [hchange] at hremembers
    obtain ⟨hflag, hsuspended⟩ := Power.isSuspended_of_ignore hchange
    exact hm.of_ignored hremembers hflag hsuspended rfl

theorem networkStandbyChanged_steady (hm : m.conditions.Steady) (enabled : Bool)
    (hmode : m.power.mode ≠ .lightSleep) :
    (m.networkStandbyChanged enabled).quietly.1.conditions.Steady := by
  have hsuspended := Power.isSuspended_withNetworkStandby hmode enabled
  refine hm.of_ignored ⟨fun henabled hsleeps => ?_, hm.remembers.awake⟩ rfl ?_ rfl
  · exact hm.remembers.asleep henabled (hsuspended ▸ hsleeps)
  · exact fun hsleeps => hsuspended ▸ hsleeps

/-! ## Starting and shutting down -/

theorem start_steady (hm : m.conditions.Steady) : m.start.quietly.1.conditions.Steady := by
  rw [start]
  rw [Run.quietly_bind]
  rw [← refreshFriendlyName_conditions] at hm
  generalize m.refreshFriendlyName.quietly = r at hm ⊢
  obtain ⟨m, known⟩ := r
  have hm₁ : (if known then m else m.armFriendlyNameRetry).conditions.Steady := by
    split
    · exact hm
    · exact hm.of_untouched (untouched_install .friendlyNameRetry nofun
        m.settings.friendlyNameRetryInterval (some m.settings.friendlyNameRetryInterval))
  dsimp only at hm₁ ⊢
  generalize (if known then m else m.armFriendlyNameRetry) = m₁ at hm₁ ⊢
  split
  · rw [Run.quietly_returning]
    exact setEnabled_steady hm₁ true
  · exact hm₁

theorem reset_steady (hm : m.watchdogs.Timely) : m.reset.conditions.Steady :=
  .of_disabled hm rfl rfl

theorem shutdown_steady (hm : m.conditions.Steady) : m.shutdown.quietly.1.conditions.Steady := by
  have htimely := hm.timely.cancelAll
  unfold shutdown
  dsimp only
  split
  · exact reset_steady htimely
  · exact reset_steady htimely

/-! ## Alarms -/

variable {a : Timer.Alarm Task}

/-- The machine when an alarm goes off, before its task is carried out. -/
def alarmed (m : Machine) (a : Timer.Alarm Task) : Machine :=
  m.withTimetable (m.watchdogs.timetable.start a)

theorem claim_untouched (kind : Timer.WatchdogKind) (hkind : kind ≠ .radioConnect) (id : Nat) :
    m.conditions.Untouched (m.claim kind id).2.conditions := by
  show m.conditions.Untouched { m.conditions with watchdogs := (m.watchdogs.claim kind id).2 }
  rw [Timer.Watchdogs.claim]
  split
  · exact untouched_emptySlot kind hkind
  · exact .refl _

theorem claim_timetable (kind : Timer.WatchdogKind) (id : Nat) :
    (m.claim kind id).2.watchdogs.timetable = m.watchdogs.timetable := by
  show (m.watchdogs.claim kind id).2.timetable = m.watchdogs.timetable
  rw [Timer.Watchdogs.claim]
  split <;> rfl

theorem connectionAcceptExpired_untouched (hm : m.conditions.Orderly) (id : Nat) :
    m.conditions.Untouched (m.connectionAcceptExpired id).quietly.1.conditions := by
  have hclaim := claim_untouched (m := m) .connectionAccept nofun id
  have hm₁ := hm.of_untouched hclaim
  rw [connectionAcceptExpired]
  generalize m.claim .connectionAccept id = claimed at hclaim hm₁ ⊢
  obtain ⟨won, m₁⟩ := claimed
  refine hclaim.trans ?_
  cases won with
  | false => exact .refl _
  | true =>
    dsimp only at hm₁ ⊢
    split
    · cases m₁.session.pending with
      | none => exact restartSessionOf_untouched (m := m₁.silencePlayer) hm₁ none
      | some p =>
        exact restartSessionOf_untouched (m := (m₁.notifyError p.peer .timeout).silencePlayer) hm₁ _
    · exact .refl _

/-- The alarm that looks the name of the device up has a number of its own. -/
theorem retryFriendlyName_untouched {id : Nat}
    (hid : ∀ a ∈ m.watchdogs.timetable.alarms, a.id = id →
      a.task = .watchdog .friendlyNameRetry) :
    m.conditions.Untouched (m.retryFriendlyName id).quietly.1.conditions := by
  rw [retryFriendlyName_eq]
  split
  · rw [Run.quietly_bind]
    have hconditions := refreshFriendlyName_conditions (m := m)
    generalize m.refreshFriendlyName.quietly = r at hconditions ⊢
    obtain ⟨m₁, known⟩ := r
    dsimp only at hconditions ⊢
    have hwatchdogs : m₁.watchdogs = m.watchdogs := congrArg Conditions.watchdogs hconditions
    rw [← hconditions]
    cases known with
    | false => exact .refl _
    | true =>
      have hclaim := claim_untouched (m := m₁) .friendlyNameRetry nofun id
      refine hclaim.trans (untouched_remove .friendlyNameRetry nofun ?_)
      show ∀ a ∈ (m₁.claim .friendlyNameRetry id).2.watchdogs.timetable.alarms, _
      rwa [claim_timetable, hwatchdogs]
  · exact untouched_remove .friendlyNameRetry nofun hid

theorem radioConnectExpired_steady (hm : m.conditions.Steady)
    (ha : a ∈ m.watchdogs.timetable.alarms) (htask : a.task ≠ .resumeDiscovery) :
    ((m.alarmed a).radioConnectExpired a.id).quietly.1.conditions.Steady := by
  rw [radioConnectExpired]
  by_cases hslot : m.watchdogs.slot .radioConnect = some a.id
  · have hclaim : (m.alarmed a).claim .radioConnect a.id = (true,
        { m.alarmed a with watchdogs := (m.alarmed a).watchdogs.setSlot .radioConnect none }) := by
      have hcurrent : (m.alarmed a).watchdogs.isCurrent .radioConnect a.id = true :=
        beq_iff_eq.2 hslot
      simp [claim, Timer.Watchdogs.claim, hcurrent]
    have htimely := hm.timely.start_emptySlot a
    rw [hclaim]
    dsimp only
    split
    case h_1 radio hresolve =>
      obtain ⟨-, hfree, -⟩ := Radio.connecting_of_resolve hresolve
      apply resumeDiscovery_steady
      exact hm.toOrderly.of_allowed htimely hm.remembers id fun _ => hfree
    case h_2 action radio hresume hresolve =>
      obtain ⟨-, hfree, hignored⟩ := Radio.connecting_of_resolve hresolve
      have hidle : m.radio.connecting = false := hignored hresume
      constructor
      · exact hm.toOrderly.of_allowed htimely hm.remembers id fun _ => hfree
      · intro henabled hawake hflag
        rcases hm.attended henabled hawake hflag with hactive | ⟨hbusy, -⟩ | hresumes
        · exact .inl hactive
        · exact nomatch hidle.symm.trans hbusy
        · exact .inr (.inr (hresumes.start hm.timely.toSound ha htask))
  · have hclaim : (m.alarmed a).claim .radioConnect a.id = (false, m.alarmed a) := by
      have hcurrent : (m.alarmed a).watchdogs.isCurrent .radioConnect a.id = false :=
        beq_eq_false_iff_ne.2 hslot
      simp [claim, Timer.Watchdogs.claim, hcurrent]
    rw [hclaim]
    exact hm.of_untouched (untouched_start ha (.inl hslot) htask)

theorem alarm_steady (hm : m.conditions.Steady) (ha : a ∈ m.watchdogs.timetable.due) :
    (m.undergo (.alarm a)).conditions.Steady := by
  have ha : a ∈ m.watchdogs.timetable.alarms := List.mem_of_mem_filter ha
  have hradio : a.task ≠ .watchdog .radioConnect → m.watchdogs.slot .radioConnect ≠ some a.id :=
    fun htask hid => hm.timely.id_ne hid ha htask rfl
  unfold undergo Occurrence.run
  dsimp only
  cases hvoid : a.isVoid with
  | true =>
    have htask : a.task ≠ .resumeDiscovery := by
      intro htask
      exact nomatch hvoid.symm.trans (hm.timely.prompt a ha htask)
    exact hm.of_untouched (untouched_start ha (.inr hvoid) htask)
  | false =>
    rw [if_neg Bool.false_ne_true, Run.quietly_returning]
    show ((m.alarmed a).ring a).quietly.1.conditions.Steady
    rw [ring]
    split
    case h_1 htask =>
      apply resumeDiscovery_steady
      have htimely := hm.timely.start ha (.inl (hradio (by simp [htask])))
      exact ⟨htimely, hm.active, hm.idle, hm.remembers⟩
    case h_2 kind htask =>
      have hresume : a.task ≠ .resumeDiscovery := by simp [htask]
      cases kind with
      | radioConnect => exact radioConnectExpired_steady hm ha hresume
      | connectionAccept =>
        have hm₁ : (m.alarmed a).conditions.Steady :=
          hm.of_untouched (untouched_start ha (.inl (hradio (by simp [htask]))) hresume)
        exact hm₁.of_untouched (connectionAcceptExpired_untouched hm₁.toOrderly a.id)
      | friendlyNameRetry =>
        have hm₁ : (m.alarmed a).conditions.Steady :=
          hm.of_untouched (untouched_start ha (.inl (hradio (by simp [htask]))) hresume)
        refine hm₁.of_untouched (retryFriendlyName_untouched ?_)
        intro b hb hbid
        obtain ⟨c, hc, hcid, hctask, -⟩ := m.watchdogs.timetable.exists_of_mem_start a hb
        obtain rfl := List.inj_on_of_nodup_map hm.timely.distinct hc ha (hcid.trans hbid)
        exact hctask.symm.trans htask

end CastReceiver.Machine
