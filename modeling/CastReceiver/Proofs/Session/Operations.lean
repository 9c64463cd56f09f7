import CastReceiver.Proofs.Session.Parties

/-!
# Operations shift the parties

Each operation of the machine, stretch by stretch, does nothing to the parties but a `Shift`.
Later results about the parties look at the kinds of shifts and not at the operations.
-/
namespace CastReceiver

namespace Parties

variable {s t : Parties}

theorem enter_congr {target : Phase} (h : t.automatic = s.automatic)
    (htarget : target.forgetsPeers = true) : t.enter target = s.enter target := by
  simp [enter, h, htarget]

end Parties

namespace Shift

variable {s t : Parties} {c : Option Command}

theorem automatic_eq (h : Shift s c t) : t.automatic = s.automatic := by
  cases h <;> rfl

/-- Nothing happens between a good machine and the next stop. -/
theorem stay_of_kept (hs : s.Kept) (hc : ∀ x ∈ c, x.accepts = false) : Shift s c s :=
  .stay hc hs.preempting_eq_none

/-- A stretch may go on to end without a session. -/
theorem rest_after (h : Shift s none t) {target : Phase} (htarget : target.isUnengaged = true) :
    Shift s none (t.enter target) := by
  rw [Parties.enter_congr h.automatic_eq (Phase.forgetsPeers_of_isUnengaged htarget)]
  exact .rest (by simp) htarget

end Shift

namespace Machine

variable {m : Machine} {s : Parties}

theorem done_completes_of_shift {α : Type} {a : α} (h : Shift s none m.parties) :
    (Run.done m a).Completes shifting s := h

theorem done_completes {α : Type} {a : α} (hs : s.Kept) (hm : m.parties = s) :
    (Run.done m a).Completes shifting s := by
  apply done_completes_of_shift
  rw [hm]
  exact .stay_of_kept hs (by simp)

theorem command_completes {c : Command} (h : Shift s (some c) m.parties) :
    (m.command c).Completes shifting s :=
  ⟨h, fun _ hm' => .stay_of_kept hm' (by simp)⟩

/-- A run that is followed by work in which no command goes out. -/
theorem andThen_done_completes {α β : Type} {r : Run α} {f : Machine → Machine} {b : β}
    (hr : r.Completes shifting s)
    (hf : ∀ s m, Shift s none m.parties → Shift s none (f m).parties) :
    (r.andThen fun m => .done (f m) b).Completes shifting s :=
  Run.obeys_andThen.2 (hr.mono fun s m _ h => hf s m h)

/-- A command that is no acceptance, issued before anything happens to the parties. -/
theorem command_completes_of_kept {c : Command} (hs : s.Kept) (hm : m.parties = s)
    (hc : c.accepts = false) : (m.command c).Completes shifting s := by
  apply command_completes
  rw [hm]
  exact .stay_of_kept hs (by simpa using hc)

/-! ## Discovery -/

theorem resumeDiscovery_completes (hs : s.Kept) (hm : m.parties = s) :
    m.resumeDiscovery.Completes shifting s := by
  rw [resumeDiscovery]
  split
  · apply done_completes hs
    split <;> exact hm
  · split
    · exact done_completes hs hm
    · dsimp only
      split
      · apply command_completes
        rw [parties_enter, parties_withGate, hm]
        exact .rest (by simp [Command.accepts]) rfl
      · exact command_completes_of_kept hs hm rfl

theorem suspendDiscovery_completes (hs : s.Kept) (hm : m.parties = s) :
    m.suspendDiscovery.Completes shifting s := by
  rw [suspendDiscovery]
  split
  · exact done_completes hs hm
  · dsimp only
    split
    · apply command_completes
      rw [parties_enter, parties_withGate, hm]
      exact .rest (by simp [Command.accepts]) rfl
    · exact command_completes_of_kept hs hm rfl

theorem restartSession_completes {mac : String} (hauto : m.parties.automatic = s.automatic)
    (hphase : s.phase.isUnengaged = false) (hrestarting : s.phase ≠ .restartingSession) :
    (m.restartSession mac).Completes shifting s := by
  rw [restartSession]
  split
  · apply done_completes_of_shift
    rw [parties_enter, Parties.enter_congr hauto rfl]
    exact .rest (by simp) rfl
  · apply command_completes
    rw [parties_enter, Parties.enter_congr hauto rfl]
    exact .restart hphase hrestarting

theorem restartSessionOf_completes {p : PendingPeer} (hauto : m.parties.automatic = s.automatic)
    (hphase : s.phase.isUnengaged = false) (hrestarting : s.phase ≠ .restartingSession) :
    (m.restartSessionOf (some p)).Completes shifting s :=
  restartSession_completes hauto hphase hrestarting

/-- Looking the name of the device up leaves the parties alone, whether or not it succeeds. -/
theorem refreshFriendlyName_obeys (hs : s.Kept) (hm : m.parties = s) :
    m.refreshFriendlyName.Obeys shifting (fun s m _ => s.Kept ∧ m.parties = s) s := by
  rw [refreshFriendlyName]
  split
  · exact ⟨hs, hm⟩
  · split
    · exact ⟨hs, hm⟩
    · rw [Run.obeys_returning, Run.obeys_command]
      refine ⟨?_, fun _ hm' => ⟨hm', rfl⟩⟩
      show Shift s _ m.parties
      rw [hm]
      exact .stay_of_kept hs (by simp [Command.accepts])

/-! ## Requests -/

theorem enable_completes (hs : s.Kept) (hm : m.parties = s) :
    m.enable.Completes shifting s := by
  rw [enable]
  split
  · exact done_completes hs hm
  · dsimp only
    split
    · exact done_completes hs hm
    · split
      · exact done_completes hs hm
      · rw [Run.completes_returning]
        exact resumeDiscovery_completes hs hm

theorem disable_completes (hs : s.Kept) (hm : m.parties = s) :
    m.disable.Completes shifting s := by
  rw [disable]
  split
  · exact done_completes hs hm
  · split
    · exact done_completes hs hm
    · apply andThen_done_completes (suspendDiscovery_completes hs (by exact hm))
      intro s m h
      have hidle : Phase.idle.isUnengaged = true := rfl
      simpa using h.rest_after hidle

theorem setEnabled_completes (hs : s.Kept) (hm : m.parties = s) (enabled : Bool) :
    (m.setEnabled enabled).Completes shifting s := by
  cases enabled with
  | false => exact disable_completes hs hm
  | true => exact Run.completes_map.2 (enable_completes hs hm)

/-- A decision about the pending peer. Before an acceptance, the machine may have come from `s` by
dropping a peer that need not wait. -/
theorem applyDecision_completes_of_adopt {d : Decision} (hs : s.PendingKept)
    (hphase : m.phase = s.phase) (hpending : m.session.pending = s.pending)
    (hauto : m.parties.automatic = s.automatic)
    (hadopt : ∀ p, s.pending = some p →
      (m.parties.adopt p).enter .connectionAccepted = s.accept p)
    (hstale : s.phase.holdsPendingPeer = false → Shift s none m.parties) :
    (m.applyDecision d).Completes shifting s := by
  have hphase' : (m.disarm .connectionAccept).phase = s.phase := hphase
  have hpending' : (m.disarm .connectionAccept).session.pending = s.pending := hpending
  unfold applyDecision
  dsimp only
  rw [hphase', hpending']
  split
  case h_1 h =>
    obtain ⟨p, l, hp, hl⟩ := hs.exists_launch h
    rw [hp]
    simp only [Option.bind_some, hl]
    rw [Run.completes_returning]
    apply command_completes
    rw [parties_enter, parties_adopt, parties_disarm, hadopt p hp]
    exact .acceptDirect h hp hl
  case h_2 h =>
    obtain ⟨p, hp⟩ := hs.exists_pending (.inr h)
    rw [hp, Run.completes_returning]
    refine restartSessionOf_completes ?_ (by rw [h]; rfl) (by simp [h])
    simpa [Parties.enter] using hauto
  case h_3 h =>
    obtain ⟨p, hp⟩ := hs.exists_pending (.inl h)
    rw [hp, Run.completes_returning]
    apply command_completes
    rw [parties_enter, parties_adopt, parties_disarm, hadopt p hp]
    exact .accept h hp
  case h_4 h =>
    rw [Run.completes_returning]
    apply command_completes
    rw [parties_enter, parties_disarm, Parties.enter_congr hauto rfl]
    exact .reject h
  case h_5 d _ _ h1 h2 h3 h4 =>
    refine hstale ?_
    have hrequested := hs.not_requested
    cases h : s.phase <;> cases d <;> simp_all [Phase.holdsPendingPeer]

theorem applyDecision_completes (hs : s.Kept) (hm : m.parties = s) (d : Decision) :
    (m.applyDecision d).Completes shifting s := by
  subst hm
  refine applyDecision_completes_of_adopt hs.toPendingKept rfl rfl rfl ?_ ?_
  · exact fun p _ => Parties.enter_adopt hs p
  · exact fun _ => .stay_of_kept hs (by simp)

theorem decide_completes (hs : s.Kept) (hm : m.parties = s) (text : String) :
    (m.decide text).Completes shifting s := by
  rw [decide]
  split
  · exact done_completes hs hm
  · exact Run.completes_map.2 (applyDecision_completes hs hm _)

theorem stopConnection_completes (hs : s.Kept) (hm : m.parties = s) (mac name : String) :
    (m.stopConnection mac name).Completes shifting s := by
  rw [stopConnection]
  split
  case h_1 => exact done_completes hs hm
  case h_2 h =>
    have hphase : s.phase = .connectionAccepted := by
      rw [← hm]
      exact h
    split
    · rw [Run.completes_returning]
      refine restartSession_completes ?_ (by rw [hphase]; rfl) (by simp [hphase])
      rw [parties_enter, hm]
      rfl
    · exact done_completes hs hm
  case h_3 => exact done_completes hs hm

theorem endSession_completes (hs : s.Kept) (hm : m.parties = s) (mac name : String)
    (reason : StopReason) : (m.endSession mac name s.phase reason).Completes shifting s := by
  rw [endSession]
  split
  · exact done_completes hs hm
  · rename_i h
    simp only [Bool.or_eq_true, decide_eq_true_eq, not_or, Bool.not_eq_true] at h
    have hm₁ : (if reason.isFailure then m.notifyError ⟨mac, name⟩ reason else m).parties = s := by
      split <;> exact hm
    dsimp only
    generalize (if reason.isFailure then m.notifyError ⟨mac, name⟩ reason else m) = m₁ at hm₁ ⊢
    split
    · rw [Run.completes_returning]
      exact restartSession_completes (congrArg Parties.automatic hm₁) h.1 h.2
    · apply done_completes_of_shift
      rw [parties_enter, parties_disarm, hm₁]
      exact .rest (by simp) rfl

theorem playerStopped_completes (hs : s.Kept) (hm : m.parties = s) (mac : String)
    (reason : StopReason) : (m.playerStopped mac reason).Completes shifting s := by
  rw [playerStopped]
  split
  · rw [Run.completes_returning]
    exact command_completes_of_kept hs hm rfl
  · split
    · exact done_completes hs hm
    · subst hm
      exact endSession_completes (m := m.setPlayer mac .stopped) hs rfl mac _ reason

theorem updatePlayer_completes (hs : s.Kept) (hm : m.parties = s) (mac state : String)
    (code : Nat) : (m.updatePlayer mac state code).Completes shifting s := by
  rw [updatePlayer]
  split
  · exact done_completes hs hm
  · rw [Run.completes_map]
    exact playerStopped_completes hs hm _ _
  · exact done_completes hs hm

theorem setBackendDiscovery_completes (hs : s.Kept) (hm : m.parties = s) (enabled : Bool) :
    (m.setBackendDiscovery enabled).Completes shifting s :=
  Run.completes_returning.2 (command_completes_of_kept hs hm rfl)

/-! ## Reports -/

/-- A request is considered once it has been taken in. -/
theorem considerRequest_completes (hs : s.PendingKept) (hm : m.parties = s)
    (hphase : s.phase.holdsPendingPeer = true) (mac name : String) :
    (m.considerRequest mac name).Completes shifting s := by
  have hengaged : ¬ s.phase.holdsPendingPeer = false := by simp [hphase]
  subst hm
  rw [considerRequest]
  split
  case isTrue ha =>
    rw [Run.Completes, Run.obeys_andThen, endPreempted]
    split
    case isTrue hp =>
      dsimp only
      split
      case h_1 p hactive =>
        rw [Run.obeys_command]
        refine ⟨.flush ha hphase hp (by simp [parties, hactive]), fun m' hm' => ?_⟩
        exact Run.completes_returning.2 (applyDecision_completes hm' rfl .accept)
      case h_2 hactive =>
        rw [Run.obeys_done]
        refine Run.completes_returning.2
          (applyDecision_completes_of_adopt hs rfl rfl rfl ?_ fun h => absurd h hengaged)
        intro p _
        simp [Parties.adopt, Parties.enter, Parties.accept, parties, setActive, setPreempting,
          hactive, ha, Phase.forgetsPeers]
    case isFalse hp =>
      rw [Run.obeys_done]
      refine Run.completes_returning.2
        (applyDecision_completes_of_adopt hs rfl rfl rfl ?_ fun h => absurd h hengaged)
      exact fun p _ => Parties.enter_adopt ⟨hs, fun _ => by simpa [parties] using hp⟩ p
  case isFalse ha =>
    exact .stay (by simp) fun h => absurd h ha

/-- A request while the service is off is turned away. -/
theorem turnAway_completes (hs : s.Kept) (hm : m.parties = s) :
    (m.command (.acceptClientConnection .reject)).Completes shifting s :=
  command_completes_of_kept hs hm rfl

/-- A request to connect, when a direct launch has not just been taken in. -/
theorem connectionRequested_completes (hs : s.Kept) (hm : m.parties = s) (mac name : String) :
    (m.connectionRequested mac name).Completes shifting
      (if m.gate.enabled then s.ask .connecting { mac, name } else s) := by
  subst hm
  have hrequested : m.phase ≠ .directLaunchRequested := hs.not_requested
  rw [connectionRequested]
  cases henabled : m.gate.enabled with
  | false => exact turnAway_completes hs rfl
  | true =>
    simp only [Bool.not_true, Bool.false_eq_true, if_false, if_true, if_neg hrequested]
    refine considerRequest_completes (Parties.pendingKept_ask_connecting _ mac name) ?_ rfl mac name
    rw [parties_enter]
    split <;> simp_all [Parties.ask, Parties.enter, Phase.forgetsPeers, parties, phase,
      setPreempting, PendingPeer.peer]

/-- The request that a direct launch implies belongs to the launch. -/
theorem connectionRequested_completes_direct {l : Launch}
    (henabled : m.gate.enabled = true)
    (hm : m.parties = s.ask .directLaunchRequested (.ofLaunch l)) :
    (m.connectionRequested l.sourceMac l.sourceName).Completes shifting
      (s.ask .directLaunchConnecting (.ofLaunch l)) := by
  have hphase : m.phase = .directLaunchRequested := congrArg Parties.phase hm
  have hpending : m.session.pending = some (.ofLaunch l) := congrArg Parties.pending hm
  have hcached : (Option.filter (fun p : PendingPeer => sameMac p.mac l.sourceMac)
      (some (.ofLaunch l))) = some (.ofLaunch l) := by
    simp [Option.filter, PendingPeer.ofLaunch]
  rw [connectionRequested]
  simp only [henabled, hphase, hpending, hcached, Bool.not_true, Bool.false_eq_true, if_false,
    if_true, reduceCtorEq, Option.getD_some]
  refine considerRequest_completes (Parties.pendingKept_ask_direct s l) ?_ rfl _ _
  simp [hm, Parties.ask, Parties.enter, Phase.forgetsPeers]

theorem directLaunch_completes (hs : s.Kept) (hm : m.parties = s) (l : Launch) :
    (m.directLaunch l).Completes shifting
      (if m.gate.enabled then s.ask .directLaunchConnecting (.ofLaunch l) else s) := by
  subst hm
  rw [directLaunch]
  cases henabled : m.gate.enabled with
  | false => exact turnAway_completes hs rfl
  | true =>
    simp only [Bool.not_true, Bool.false_eq_true, if_false, if_true]
    apply connectionRequested_completes_direct
    · rw [enter_gate, ← henabled]
      split <;> rfl
    · rw [parties_enter]
      split <;> simp_all [Parties.ask, Parties.enter, Phase.forgetsPeers, parties, phase,
        setPreempting, PendingPeer.peer, PendingPeer.ofLaunch, Launch.peer]

theorem acceptedLaunch_completes (hs : s.Kept) (hm : m.parties = s) (l : Launch) :
    (m.acceptedLaunch l).Completes shifting s := by
  subst hm
  by_cases hl : m.parties.Admits l
  · have hlaunch := Shift.launch hl
    have hauto : m.parties.automatic = m.settings.autoAccept := rfl
    rw [hauto, ← parties_launched] at hlaunch
    rw [acceptedLaunch_of_admits hl]
    split
    case isTrue ha =>
      rw [if_pos ha] at hlaunch
      exact command_completes hlaunch
    case isFalse ha =>
      rw [if_neg ha] at hlaunch
      exact done_completes_of_shift hlaunch
  · rw [acceptedLaunch_of_not_admits hl]
    exact done_completes hs rfl

theorem discoveryRestarted_completes (hs : s.Kept) (hm : m.parties = s) :
    m.discoveryRestarted.Completes shifting s := by
  rw [discoveryRestarted]
  split
  · apply done_completes_of_shift
    rw [parties_enter, hm]
    refine .rest (by simp) ?_
    split <;> rfl
  · exact done_completes hs hm

theorem wifiChanged_completes (hs : s.Kept) (hm : m.parties = s) (state : WifiState) :
    (m.wifiChanged state).Completes shifting s := by
  rw [wifiChanged]
  split
  · exact andThen_done_completes (suspendDiscovery_completes hs (by exact hm)) fun _ _ h => h
  · exact resumeDiscovery_completes hs hm
  · exact done_completes hs hm

theorem fallAsleep_shift (h : Shift s none m.parties) : Shift s none m.fallAsleep.parties := by
  rw [fallAsleep]
  split
  · rw [parties_enter]
    exact h.rest_after rfl
  · exact h

theorem powerModeChanged_completes (hs : s.Kept) (hm : m.parties = s) (mode : PowerMode) :
    (m.powerModeChanged mode).Completes shifting s := by
  rw [powerModeChanged]
  split
  · exact done_completes hs hm
  · apply andThen_done_completes
    · split
      · exact suspendDiscovery_completes hs hm
      · exact done_completes hs hm
    · exact fun _ _ h => fallAsleep_shift h
  · exact done_completes hs hm

/-! ## Starting, shutting down and alarms -/

theorem start_completes (hs : s.Kept) (hm : m.parties = s) : m.start.Completes shifting s := by
  rw [start, Run.Completes, Run.obeys_bind]
  refine (refreshFriendlyName_obeys hs hm).mono ?_
  rintro s m known ⟨hs, hm⟩
  have hm₁ : (if known then m else m.armFriendlyNameRetry).parties = s := by
    split <;> exact hm
  dsimp only
  generalize (if known then m else m.armFriendlyNameRetry) = m₁ at hm₁ ⊢
  split
  · exact Run.completes_returning.2 (setEnabled_completes hs hm₁ true)
  · exact done_completes hs hm₁

theorem shutdown_completes (hs : s.Kept) (hm : m.parties = s) :
    m.shutdown.Completes shifting s := by
  have hreset : ∀ s (m : Machine), Shift s none m.parties → Shift s none m.reset.parties := by
    intro s m h
    rw [parties_reset]
    exact h.rest_after rfl
  unfold shutdown
  dsimp only
  split
  · apply done_completes_of_shift
    apply hreset
    rw [parties_disarmAll, hm]
    exact .stay_of_kept hs (by simp)
  · exact andThen_done_completes (command_completes_of_kept hs hm rfl) hreset

theorem connectionAcceptExpired_completes (hs : s.Kept) (hm : m.parties = s) (id : Nat) :
    (m.connectionAcceptExpired id).Completes shifting s := by
  have hm₁ : (m.claim .connectionAccept id).2.parties = s := hm
  rw [connectionAcceptExpired]
  generalize m.claim .connectionAccept id = claimed at hm₁ ⊢
  obtain ⟨won, m₁⟩ := claimed
  cases won with
  | false => exact done_completes hs hm₁
  | true =>
    dsimp only at hm₁ ⊢
    split
    case isTrue h =>
      have hphase : s.phase = .connecting ∨ s.phase = .directLaunchConnecting := by
        rw [← hm₁]
        exact (Bool.or_eq_true _ _ ▸ h).imp of_decide_eq_true of_decide_eq_true
      obtain ⟨p, hp⟩ := hs.exists_pending hphase
      have hp₁ : m₁.session.pending = some p := by
        rw [← hp, ← hm₁]
        rfl
      rw [hp₁]
      refine restartSessionOf_completes (congrArg Parties.automatic hm₁) ?_ ?_ <;>
        rcases hphase with h | h <;> simp [h, Phase.isUnengaged]
    case isFalse => exact done_completes hs hm₁

theorem radioConnectExpired_completes (hs : s.Kept) (hm : m.parties = s) (id : Nat) :
    (m.radioConnectExpired id).Completes shifting s := by
  have hm₁ : (m.claim .radioConnect id).2.parties = s := hm
  rw [radioConnectExpired]
  generalize m.claim .radioConnect id = claimed at hm₁ ⊢
  obtain ⟨won, m₁⟩ := claimed
  cases won with
  | false => exact done_completes hs hm₁
  | true =>
    dsimp only at hm₁ ⊢
    split
    · exact resumeDiscovery_completes hs hm₁
    · exact done_completes hs hm₁

theorem retryFriendlyName_completes (hs : s.Kept) (hm : m.parties = s) (id : Nat) :
    (m.retryFriendlyName id).Completes shifting s := by
  rw [retryFriendlyName_eq]
  split
  · rw [Run.Completes, Run.obeys_bind]
    refine (refreshFriendlyName_obeys hs hm).mono ?_
    rintro s m known ⟨hs, hm⟩
    refine done_completes hs ?_
    split <;> exact hm
  · exact done_completes hs hm

theorem ring_completes (hs : s.Kept) (hm : m.parties = s) (a : Timer.Alarm Task) :
    (m.ring a).Completes shifting s := by
  rw [ring]
  split
  · exact resumeDiscovery_completes hs hm
  · rename_i kind _
    cases kind with
    | connectionAccept => exact connectionAcceptExpired_completes hs hm _
    | radioConnect => exact radioConnectExpired_completes hs hm _
    | friendlyNameRetry => exact retryFriendlyName_completes hs hm _

end Machine

/-! ## All operations -/

/-- A request shifts the parties from where they are when it has been taken in. -/
theorem perform_completes {m : Machine} (hm : m.parties.Kept) (c : Call) :
    (m.perform c).Completes shifting ((Occurrence.call c).opened m) := by
  cases c with
  | start => exact Run.completes_returning.2 (m.start_completes hm rfl)
  | shutdown => exact Run.completes_returning.2 (m.shutdown_completes hm rfl)
  | setEnabled enabled => exact Run.completes_map.2 (m.setEnabled_completes hm rfl enabled)
  | isEnabled | phase => exact m.done_completes hm rfl
  | decide text => exact Run.completes_map.2 (m.decide_completes hm rfl text)
  | stop mac name => exact Run.completes_map.2 (m.stopConnection_completes hm rfl mac name)
  | player mac state code =>
    exact Run.completes_map.2 (m.updatePlayer_completes hm rfl mac state code)
  | backendDiscovery enabled =>
    exact Run.completes_map.2 (m.setBackendDiscovery_completes hm rfl enabled)
  | report r =>
    rw [Machine.perform, Run.completes_returning]
    cases r with
    | connectionRequest mac name => exact m.connectionRequested_completes hm rfl mac name
    | launchRequest l reported =>
      cases reported with
      | false => exact m.directLaunch_completes hm rfl l
      | true => exact m.acceptedLaunch_completes hm rfl l
    | discoveryRestarted => exact m.discoveryRestarted_completes hm rfl
    | powerModeChanged old new => exact m.powerModeChanged_completes hm rfl new
    | networkStandbyChanged enabled =>
      exact Machine.done_completes_of_shift (.stay_of_kept hm (by simp))
    | wifiStateChanged state => exact m.wifiChanged_completes hm rfl state

theorem Occurrence.run_completes {m : Machine} (hm : m.parties.Kept) (o : Occurrence) :
    (o.run m).Completes shifting (o.opened m) := by
  cases o with
  | call c => exact perform_completes hm c
  | alarm a =>
    unfold run
    dsimp only
    split
    · exact Machine.done_completes hm rfl
    · exact Run.completes_returning.2 (Machine.ring_completes hm (by rfl) a)
  | elapse ms => exact Machine.done_completes hm rfl
  | settle => exact Machine.done_completes hm rfl

/-- Whatever happens to a machine, its parties shift and are kept. -/
theorem shifting_governs : shifting.Governs Occurrence.opened where
  fresh _ _ :=
    ⟨Parties.pendingKept_of_settled rfl rfl nofun, fun _ => rfl⟩
  runs _ o hm _ := o.run_completes hm
  kept hm h := h.kept hm.toPendingKept
  keptOpened hm h := h.kept (Occurrence.pendingKept_opened hm.toPendingKept)

end CastReceiver
