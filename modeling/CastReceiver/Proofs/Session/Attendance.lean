import CastReceiver.Proofs.Session.Negotiation

/-!
# How operations attend to a negotiation

Most operations are over with their first command. The others go on afterwards with whatever
machine comes back, and then no negotiation begins any more: either nothing had been done about the
one that was under way, or it ends for good. This is said once for every occurrence, for those in
which nobody interferes with the command and for those in which somebody does.
-/
namespace CastReceiver

open Timer (Watchdogs)

/-- How an operation deals with a negotiation, whoever interferes with its first command. -/
inductive Run.Attends (m : Machine) {α : Type} : Run α → Prop where
  | brief {r : Run α} (h : r.Brief fun m' => m.watch.Handles m'.watch) : Attends m r
  /-- The negotiation is not touched before the command. -/
  | spares {β : Type} {r : Run β} {f : Machine → β → Run α}
      (hr : r.Brief fun m' => m.watch.Spares m'.watch)
      (hf : ∀ m₁ a, m₁.watchdogs.Sound → m.watchdogs.Ensues m₁.watchdogs →
        (f m₁ a).Brief fun m' => m₁.watch.Handles m'.watch) : Attends m (r.bind f)
  /-- The watchdog is cancelled before the command, and the negotiation ended after it. -/
  | cancels {β : Type} {r : Run β} {f : Machine → β → Run α}
      (hr : r.Brief fun m' => m.watchdogs.Ensues m'.watchdogs ∧
        m'.watchdogs.slot .connectionAccept = none ∧ m'.settings = m.settings)
      (hf : ∀ m₁ a, (f m₁ a).Brief fun m' => m₁.watch.Leaves m'.watch) : Attends m (r.bind f)
  /-- Whatever becomes of the negotiation before the command, there is none after it. -/
  | ends {β : Type} {r : Run β} {f : Machine → β → Run α}
      (hr : r.Brief fun m' => m'.watchdogs = m.watchdogs ∧ m'.settings = m.settings)
      (hf : ∀ m₁ a, m₁.watchdogs.Sound → (f m₁ a).Brief fun m' => m₁.watch.Settles m'.watch) :
      Attends m (r.bind f)

namespace Run

variable {α β γ : Type} {m : Machine} {r : Run α}

theorem Attends.map (h : r.Attends m) (g : α → β) : (r.map g).Attends m := by
  cases h with
  | brief h => exact .brief (h.map g)
  | spares hr hf =>
    rw [Run.map, bind_assoc]
    exact .spares hr fun m₁ a hm₁ hensues => (hf m₁ a hm₁ hensues).map g
  | cancels hr hf =>
    rw [Run.map, bind_assoc]
    exact .cancels hr fun m₁ a => (hf m₁ a).map g
  | ends hr hf =>
    rw [Run.map, bind_assoc]
    exact .ends hr fun m₁ a hm₁ => (hf m₁ a hm₁).map g

theorem Attends.returning (h : r.Attends m) (b : β) : (r.returning b).Attends m :=
  h.map fun _ => b

/-- If nobody interferes, no negotiation begins, and one that has ended has no watchdog. -/
theorem Attends.quietly (hm : m.watchdogs.Sound) (h : r.Attends m) :
    m.watch.Handles r.quietly.1.watch := by
  cases h with
  | brief h => exact h.quietly
  | spares hr hf =>
    have hspared := hr.quietly
    rw [quietly_bind]
    exact hspared.handles (hf _ _ hspared.watchdogs.sound hspared.watchdogs.toEnsues).quietly
  | cancels hr hf =>
    obtain ⟨hensues, hslot, hsettings⟩ := hr.quietly
    rw [quietly_bind]
    exact .inr ((hf _ _).quietly.settles hensues hslot hsettings)
  | @ends _ r f hr hf =>
    obtain ⟨hwatchdogs, hsettings⟩ := hr.quietly
    have hsettled := (hf _ r.quietly.2 (hwatchdogs ▸ hm)).quietly
    rw [quietly_bind]
    have hensues : r.quietly.1.watchdogs.Ensues _ := hsettled.watchdogs
    rw [hwatchdogs] at hensues
    exact .inr ⟨hensues, hsettled.ended, hsettled.slot, hsettled.settings.trans hsettings⟩

end Run

namespace Machine

variable {m : Machine}

/-! ## Operations -/

theorem disable_attends (hm : m.watchdogs.Sound) : m.disable.Attends m := by
  have hrefl : m.watch.Handles m.watch := .inl (.refl hm)
  rw [disable]
  split
  · exact .brief hrefl
  · split
    · exact .brief hrefl
    · let m₁ : Machine := { m with gate := { m.gate with enabled := false } }
      have hstopped : m₁.suspendDiscovery.Brief fun m' => m.watch.Spares m'.watch :=
        suspendDiscovery_spares hm
      exact .spares hstopped fun _ _ hm₁ _ => .inr (settles_of_disabled hm₁)

theorem wifiChanged_attends (hm : m.watchdogs.Sound) (state : WifiState) :
    (m.wifiChanged state).Attends m := by
  rw [wifiChanged]
  split
  case h_1 radio _ =>
    have hstopped : { m with radio }.suspendDiscovery.Brief fun m' => m.watch.Spares m'.watch :=
      suspendDiscovery_spares hm
    refine .spares hstopped fun m₁ _ hm₁ _ => .inl ?_
    exact Watch.spares_watchdogs (Watchdogs.spares_install _ _ hm₁ (by decide))
  case h_2 radio _ =>
    have hdisarmed : m.watch.Spares ({ m with radio }.disarm .radioConnect).watch :=
      Watch.spares_watchdogs (Watchdogs.spares_cancel hm (by decide))
    have hresumed := resumeDiscovery_spares hdisarmed.watchdogs.sound
    exact .brief (hresumed.mono fun _ h => .inl (hdisarmed.trans h))
  case h_3 => exact .brief (.inl (.refl hm))

theorem powerModeChanged_attends (hm : m.watchdogs.Sound) (mode : PowerMode) :
    (m.powerModeChanged mode).Attends m := by
  rw [powerModeChanged]
  split
  case h_1 =>
    exact .brief (.inl (Watch.spares_watchdogs (Watchdogs.spares_add 0 none hm _ fun _ => rfl)))
  case h_2 stop power _ =>
    let m₁ := ({ m with power }.disarm .connectionAccept).disarm .radioConnect
    have haccept := Watchdogs.ensues_cancel hm .connectionAccept
    have hensues : m.watchdogs.Ensues m₁.watchdogs :=
      haccept.trans (Watchdogs.ensues_cancel haccept.sound .radioConnect)
    have hslot : m₁.watchdogs.slot .connectionAccept = none := by simp [m₁, disarm]
    have hstopped : (if stop then m₁.suspendDiscovery else .done m₁ ()).Brief fun m' =>
        m₁.watch.Spares m'.watch := by
      split
      · exact suspendDiscovery_spares hensues.sound
      · exact .refl hensues.sound
    refine .cancels (hstopped.mono fun m' h => ?_) fun m' _ => fallAsleep_leaves m'
    exact ⟨hensues.trans h.watchdogs.toEnsues, h.watchdogs.slot_eq.trans hslot, h.settings⟩
  case h_3 => exact .brief (.inl (.refl hm))

/-- In automatic mode nobody waits for a decision after a request. -/
theorem considerRequest_attends {m₁ : Machine} (hwatchdogs : m₁.watchdogs = m.watchdogs)
    (hsettings : m₁.settings = m.settings) (ha : m₁.settings.autoAccept = true)
    (mac name : String) : (m₁.considerRequest mac name).Attends m := by
  have hpreempted : m₁.endPreempted.Brief fun m' =>
      m'.watchdogs = m.watchdogs ∧ m'.settings = m.settings := by
    rw [endPreempted]
    split
    · dsimp only
      split
      · exact Run.brief_command.2 ⟨hwatchdogs, hsettings⟩
      · exact ⟨hwatchdogs, hsettings⟩
    · exact ⟨hwatchdogs, hsettings⟩
  rw [considerRequest, if_pos ha]
  exact .ends hpreempted fun m₂ _ hm₂ => (applyDecision_settles hm₂ .accept).returning ()

theorem start_attends (hm : m.watchdogs.Sound) : m.start.Attends m := by
  refine .spares (refreshFriendlyName_spares hm) fun m₁ known hm₁ _ => ?_
  have hretried : m₁.watch.Spares (if known then m₁ else m₁.armFriendlyNameRetry).watch := by
    split
    · exact .refl hm₁
    · exact Watch.spares_watchdogs (Watchdogs.spares_install _ _ hm₁ (by decide))
  dsimp only
  generalize (if known then m₁ else m₁.armFriendlyNameRetry) = m₂ at hretried ⊢
  split
  · apply Run.Brief.returning
    apply Run.Brief.map
    exact (enable_spares hretried.watchdogs.sound).mono fun _ h => .inl (hretried.trans h)
  · exact .inl hretried

theorem shutdown_attends (hm : m.watchdogs.Sound) : m.shutdown.Attends m := by
  have hensues : m.watchdogs.Ensues m.disarmAll.watchdogs := Watchdogs.ensues_cancelAll hm
  have hslot : m.disarmAll.watchdogs.slot .connectionAccept = none :=
    Watchdogs.cancelAll_slot _ _
  have hreset : ∀ m₁ : Machine, m₁.watch.Leaves m₁.reset.watch := 
    fun m₁ => ⟨Watch.not_negotiates rfl, .idle, rfl⟩
  unfold shutdown
  dsimp only
  split
  · exact .brief (.inr ((hreset m.disarmAll).settles hensues hslot rfl))
  · exact .cancels (Run.brief_command.2 ⟨hensues, hslot, rfl⟩) fun m₁ _ => hreset m₁

variable {a : Timer.Alarm Task}

/-- The alarm that looks the name of the device up is not that of the watchdog, even if its run goes
on much later. -/
theorem finishAlarm_spares (hm : m.watchdogs.Sound) (ha : a ∈ m.watchdogs.timetable.alarms)
    (htask : a.task = .watchdog .friendlyNameRetry) {m₁ : Machine}
    (hensues : m.watchdogs.Ensues m₁.watchdogs) :
    m₁.watch.Spares (m₁.finishAlarm a.id).watch := by
  apply Watch.spares_watchdogs
  apply Watchdogs.spares_remove (k := .friendlyNameRetry) hensues.sound (by decide)
  intro b hb hid
  obtain ⟨c, hc, hcid, hctask⟩ := hensues.known b hb (hid ▸ hm.fresh a ha)
  obtain rfl := List.inj_on_of_nodup_map hm.distinct hc ha (hcid.trans hid)
  exact hctask.symm.trans htask

theorem retryFriendlyName_attends (hm : m.watchdogs.Sound)
    (ha : a ∈ m.watchdogs.timetable.alarms) (htask : a.task = .watchdog .friendlyNameRetry) :
    ((m.alarmed a).retryFriendlyName a.id).Attends m := by
  have hspared := alarmed_spares hm ha (.inl (by simp [htask]))
  rw [retryFriendlyName_eq]
  split
  case isTrue =>
    have hlooked := (refreshFriendlyName_spares hspared.watchdogs.sound).mono fun _ => hspared.trans
    refine .spares hlooked fun m₁ known hm₁ hensues => ?_
    rw [Run.brief_done]
    split
    case isTrue =>
      have hclaimed := claim_spares hm₁ .friendlyNameRetry (by decide) a.id
      have hlater := hensues.trans hclaimed.watchdogs.toEnsues
      exact .inl (hclaimed.trans (finishAlarm_spares hm ha htask hlater))
    case isFalse => exact .inl (.refl hm₁)
  case isFalse =>
    have hfinished := finishAlarm_spares hm ha htask hspared.watchdogs.toEnsues
    exact .brief (.inl (hspared.trans hfinished))

/-- A request that is taken in is considered. -/
theorem run_requester_of_enabled {o : Occurrence} (ho : o.requester?.isSome = true)
    (henabled : m.gate.enabled = true) : ∃ m₁ : Machine, ∃ phase mac name,
      m₁.watch = { m.watch with phase } ∧ m₁.watch.Negotiates ∧
        o.run m = (m₁.considerRequest mac name).returning .nothing := by
  unfold Occurrence.requester? at ho
  split at ho
  case h_1 mac name =>
    obtain ⟨m₁, phase, hm₁, hnegotiates, hrun⟩ := connectionRequested_of_enabled henabled mac name
    refine ⟨m₁, phase, mac, name, hm₁, hnegotiates, ?_⟩
    rw [← hrun]
    rfl
  case h_2 l =>
    obtain ⟨m₁, phase, hm₁, hnegotiates, hrun⟩ := directLaunch_of_enabled henabled l
    refine ⟨m₁, phase, l.sourceMac, l.sourceName, hm₁, hnegotiates, ?_⟩
    rw [← hrun]
    rfl
  case h_3 => exact nomatch ho

/-- A request that is not taken in is turned away. -/
theorem run_requester_of_disabled {o : Occurrence} (ho : o.requester?.isSome = true)
    (hdisabled : m.gate.enabled = false) :
    o.run m = (m.command (.acceptClientConnection .reject)).returning .nothing := by
  unfold Occurrence.requester? at ho
  split at ho
  case h_1 mac name =>
    have hrun : m.connectionRequested mac name = m.command (.acceptClientConnection .reject) :=
      if_pos (by simp [hdisabled])
    rw [← hrun]
    rfl
  case h_2 l =>
    have hrun : m.directLaunch l = m.command (.acceptClientConnection .reject) :=
      if_pos (by simp [hdisabled])
    rw [← hrun]
    rfl
  case h_3 => exact nomatch ho

/-- A report that is not a request. -/
theorem receive_attends (hm : m.watchdogs.Sound) (r : Report)
    (hr : (Occurrence.call (.report r)).requester? = none) : (m.receive r).Attends m := by
  cases r with
  | connectionRequest mac name => exact nomatch hr
  | launchRequest l reported =>
    cases reported with
    | false => exact nomatch hr
    | true => exact .brief ((acceptedLaunch_spares hm l).mono fun _ => .inl)
  | discoveryRestarted => exact .brief ((discoveryRestarted_spares hm).mono fun _ => .inl)
  | powerModeChanged old new => exact powerModeChanged_attends hm new
  | networkStandbyChanged enabled => exact .brief (.inl (.refl hm))
  | wifiStateChanged state => exact wifiChanged_attends hm state

theorem perform_attends (hm : m.watchdogs.Sound) (c : Call)
    (hc : (Occurrence.call c).requester? = none) : (m.perform c).Attends m := by
  have hrefl : m.watch.Handles m.watch := .inl (.refl hm)
  cases c with
  | start => exact (start_attends hm).returning _
  | shutdown => exact (shutdown_attends hm).returning _
  | setEnabled enabled =>
    cases enabled with
    | false => exact (disable_attends hm).map _
    | true =>
      have henabled : m.enable.Attends m := .brief ((enable_spares hm).mono fun _ => .inl)
      exact (henabled.map _).map _
  | isEnabled | phase => exact .brief hrefl
  | decide text => exact (Run.Attends.brief (decide_handles hm text)).map _
  | stop mac name =>
    have hstopped : (m.stopConnection mac name).Attends m :=
      .brief ((stopConnection_spares hm mac name).mono fun _ => .inl)
    exact hstopped.map _
  | player mac state code =>
    exact (Run.Attends.brief (updatePlayer_handles hm mac state code)).map _
  | backendDiscovery enabled =>
    have hpassed : (m.command (.setBackendDiscovery enabled)).Attends m :=
      .brief (Run.brief_command.2 hrefl)
    exact (hpassed.returning _).map _
  | report r => exact (receive_attends hm r hc).returning _

/-- An alarm that goes off for good. -/
theorem ring_attends (hm : m.watchdogs.Sound)
    (ha : a ∈ m.watchdogs.timetable.alarms) : ((m.alarmed a).ring a).Attends m := by
  rw [ring]
  split
  case h_1 htask =>
    have hspared := alarmed_spares hm ha (.inl (by simp [htask]))
    have hresumed := resumeDiscovery_spares hspared.watchdogs.sound
    exact .brief (hresumed.mono fun _ h => .inl (hspared.trans h))
  case h_2 kind htask =>
    cases kind with
    | connectionAccept => exact .brief (connectionAcceptExpired_handles hm ha)
    | radioConnect =>
      have hspared := alarmed_spares hm ha (.inl (by simp [htask]))
      have hexpired := radioConnectExpired_spares hspared.watchdogs.sound a.id
      exact .brief (hexpired.mono fun _ h => .inl (hspared.trans h))
    | friendlyNameRetry => exact retryFriendlyName_attends hm ha htask

end Machine

namespace Occurrence

variable {m : Machine} {o : Occurrence}

/-- In manual mode, a request that is taken in begins a negotiation. -/
theorem run_opens (hm : m.watchdogs.Sound) (hmanual : m.settings.autoAccept = false)
    (ho : o.requester?.isSome = true) (henabled : m.gate.enabled = true) :
    (o.run m).Brief fun m' => m.watch.Opens m'.watch := by
  obtain ⟨m₁, phase, mac, name, hm₁, hnegotiates, hrun⟩ :=
    Machine.run_requester_of_enabled ho henabled
  have hwatchdogs : m₁.watchdogs = m.watchdogs := congrArg Watch.watchdogs hm₁
  have hsettings : m₁.settings = m.settings := congrArg Watch.settings hm₁
  have hopens := Machine.considerRequest_opens (hwatchdogs ▸ hm) (hsettings ▸ hmanual) hnegotiates
    mac name
  rw [hrun]
  apply Run.Brief.returning
  apply hopens.mono
  intro m' h
  rw [hm₁] at h
  exact ⟨h.watchdogs, h.negotiates, h.goesOffAt, h.settings⟩

/-- Nothing else begins a negotiation that has to wait. -/
theorem run_attends (hm : m.watchdogs.Sound) (ho : o.Possible m)
    (hautomatic : o.requester?.isSome = true → m.gate.enabled = true →
      m.settings.autoAccept = true) : (o.run m).Attends m := by
  have hrefl : m.watch.Handles m.watch := .inl (.refl hm)
  by_cases hrequest : o.requester?.isSome = true
  · cases henabled : m.gate.enabled with
    | true =>
      obtain ⟨m₁, phase, mac, name, hm₁, -, hrun⟩ :=
        Machine.run_requester_of_enabled hrequest henabled
      have hwatchdogs : m₁.watchdogs = m.watchdogs := congrArg Watch.watchdogs hm₁
      have hsettings : m₁.settings = m.settings := congrArg Watch.settings hm₁
      have ha : m₁.settings.autoAccept = true := by
        rw [hsettings]
        exact hautomatic hrequest henabled
      rw [hrun]
      exact (Machine.considerRequest_attends hwatchdogs hsettings ha mac name).returning _
    | false =>
      rw [Machine.run_requester_of_disabled hrequest henabled]
      exact .brief ((Run.brief_command.2 hrefl).returning _)
  · rw [Option.not_isSome_iff_eq_none] at hrequest
    cases o with
    | call c => exact Machine.perform_attends hm c hrequest
    | alarm a =>
      have ha : a ∈ m.watchdogs.timetable.alarms := List.mem_of_mem_filter ho
      unfold run
      dsimp only
      split
      case isTrue hvoid => exact .brief (.inl (Machine.alarmed_spares hm ha (.inr hvoid)))
      case isFalse => exact (Machine.ring_attends hm ha).returning _
    | elapse ms => exact .brief (.inl (Watch.spares_watchdogs (Watchdogs.spares_clock hm _ _)))
    | settle => exact .brief (.inl (Watch.spares_watchdogs (Watchdogs.spares_clock hm _ _)))

/-- Every occurrence begins a negotiation that has to wait, or attends to the one there is. -/
theorem run_attends_or_opens (hm : m.watchdogs.Sound) (ho : o.Possible m) :
    (o.run m).Attends m ∨ (o.run m).Brief fun m' => m.watch.Opens m'.watch := by
  by_cases hautomatic : o.requester?.isSome = true → m.gate.enabled = true →
      m.settings.autoAccept = true
  · exact .inl (run_attends hm ho hautomatic)
  · simp only [Classical.not_imp, Bool.not_eq_true] at hautomatic
    obtain ⟨hrequest, henabled, hmanual⟩ := hautomatic
    exact .inr (run_opens hm hmanual hrequest henabled)

end Occurrence

end CastReceiver
