import CastReceiver.Proofs.Spelling.Basic

/-!
# Operations in another spelling

An operation goes the same way in every spelling: it comes to the same decisions, issues the same
commands but for the spelling of addresses, and ends with the same result, whatever comes back from
its commands.
-/
namespace CastReceiver

variable {s : Spelling}

/-- A run in another spelling. The result is told in the other spelling as well. -/
inductive Run.Respells (s : Spelling) {α β : Type} (tell : α → β) : Run α → Run β → Prop where
  | done {m m' : Machine} {a : α} {b : β} (hm : m' = m.respell s) (hb : b = tell a) :
      Respells s tell (.done m a) (.done m' b)
  | issue {m m' : Machine} {c c' : Command} {next : Machine → Run α} {next' : Machine → Run β}
      (hm : m' = m.respell s) (hc : c' = c.respell s)
      (hnext : ∀ m, Respells s tell (next m) (next' (m.respell s))) :
      Respells s tell (.issue m c next) (.issue m' c' next')

namespace Run

variable {α β γ δ : Type} {tell : α → β} {tell' : γ → δ} {r : Run α} {r' : Run β}

theorem Respells.bind {k : Machine → α → Run γ} {k' : Machine → β → Run δ}
    (h : r.Respells s tell r')
    (hk : ∀ m a, (k m a).Respells s tell' (k' (m.respell s) (tell a))) :
    (r.bind k).Respells s tell' (r'.bind k') := by
  induction h with
  | done hm hb =>
    subst hm hb
    exact hk _ _
  | issue hm hc _ ih => exact .issue hm hc ih

theorem Respells.andThen {k : Machine → Run γ} {k' : Machine → Run δ}
    (h : r.Respells s tell r') (hk : ∀ m, (k m).Respells s tell' (k' (m.respell s))) :
    (r.andThen k).Respells s tell' (r'.andThen k') :=
  h.bind fun m _ => hk m

theorem Respells.map {f : α → γ} {f' : β → δ} (h : r.Respells s tell r')
    (hf : ∀ a, f' (tell a) = tell' (f a)) : (r.map f).Respells s tell' (r'.map f') :=
  h.bind fun _ a => .done rfl (hf a)

theorem Respells.returning {c : γ} {d : δ} (h : r.Respells s tell r') (hd : d = tell' c) :
    (r.returning c).Respells s tell' (r'.returning d) :=
  h.map fun _ => hd

theorem Respells.command {m m' : Machine} {c c' : Command} (hm : m' = m.respell s)
    (hc : c' = c.respell s) : (m.command c).Respells s id (m'.command c') := by
  subst hm hc
  exact .issue (Machine.respell_emit s m (.command c)).symm rfl fun _ => .done rfl rfl

/-- Two runs come to the same decision. -/
theorem Respells.ite {p p' : Prop} [Decidable p] [Decidable p'] {r₁ r₂ : Run α} {r₁' r₂' : Run β}
    (hp : p' ↔ p) (h₁ : p → r₁.Respells s tell r₁') (h₂ : ¬p → r₂.Respells s tell r₂') :
    (if p then r₁ else r₂).Respells s tell (if p' then r₁' else r₂') := by
  by_cases h : p
  · rw [if_pos h, if_pos (hp.2 h)]
    exact h₁ h
  · rw [if_neg h, if_neg (mt hp.1 h)]
    exact h₂ h

end Run

namespace Machine

variable (s : Spelling) (m : Machine)

/-- A request may be refused with an error that quotes an address. -/
abbrev Outcome.respell : Outcome → Outcome :=
  Except.mapError (SessionError.respell s)

/-- Two machines are changed, or not, by the same decision. -/
theorem respell_ite {p p' : Prop} [Decidable p] [Decidable p'] {m₁ m₂ m₁' m₂' : Machine}
    (hp : p' ↔ p) (h₁ : m₁' = m₁.respell s) (h₂ : m₂' = m₂.respell s) :
    (if p' then m₁' else m₂') = (if p then m₁ else m₂).respell s := by
  by_cases h : p
  · rw [if_pos h, if_pos (hp.2 h), h₁]
  · rw [if_neg h, if_neg (mt hp.1 h), h₂]

/-! ## Discovery -/

theorem resumeDiscovery_respells :
    m.resumeDiscovery.Respells s id (m.respell s).resumeDiscovery := by
  unfold resumeDiscovery
  refine .ite Iff.rfl (fun _ => .done (respell_ite s Iff.rfl rfl rfl) rfl) fun _ => ?_
  have hgate : (m.respell s).gate.activate? (m.respell s).power.isSuspended =
      m.gate.activate? m.power.isSuspended := rfl
  rw [hgate]
  cases m.gate.activate? m.power.isSuspended with
  | none => exact .done rfl rfl
  | some gate =>
    exact .command (respell_ite s Iff.rfl (respell_enter s { m with gate } _ none).symm rfl) rfl

theorem suspendDiscovery_respells :
    m.suspendDiscovery.Respells s id (m.respell s).suspendDiscovery := by
  unfold suspendDiscovery
  have hgate : (m.respell s).gate.deactivate? = m.gate.deactivate? := rfl
  rw [hgate]
  cases m.gate.deactivate? with
  | none => exact .done rfl rfl
  | some gate =>
    exact .command (respell_ite s Iff.rfl (respell_enter s { m with gate } _ none).symm rfl) rfl

theorem restartSession_respells (mac : String) :
    (m.restartSession mac).Respells s id ((m.respell s).restartSession (s.write mac)) := by
  unfold restartSession
  refine .ite Iff.rfl (fun _ => .done ?_ rfl) fun _ => .command ?_ rfl
  · rw [respell_enter]
    rfl
  · rw [respell_enter]
    rfl

theorem restartSessionOf_respells (pending : Option PendingPeer) :
    (m.restartSessionOf pending).Respells s id
      ((m.respell s).restartSessionOf (pending.map (PendingPeer.respell s))) := by
  cases pending with
  | some p => exact restartSession_respells s m p.mac
  | none => exact .done (respell_enter s m _ none).symm rfl

theorem refreshFriendlyName_respells :
    m.refreshFriendlyName.Respells s id (m.respell s).refreshFriendlyName := by
  cases hsource : m.nameSource with
  | none =>
    have hsource' : (m.respell s).nameSource = none := hsource
    rw [refreshFriendlyName_of_none hsource, refreshFriendlyName_of_none hsource']
    exact .done rfl rfl
  | some source =>
    have hsource' : (m.respell s).nameSource = some source := hsource
    have hlooked : (m.respell s).looked = m.looked.respell s :=
      (respell_record s { m with lookups := m.lookups + 1 } .nameLookup).symm
    have hlookups : (m.respell s).lookups = m.lookups := rfl
    rw [refreshFriendlyName_of_some hsource, refreshFriendlyName_of_some hsource', hlooked,
      hlookups]
    cases source m.lookups with
    | none => exact .done rfl rfl
    | some name => exact .returning (.command rfl rfl) rfl

/-! ## Requests -/

theorem enable_respells : m.enable.Respells s id (m.respell s).enable := by
  unfold enable
  refine .ite Iff.rfl (fun _ => .done rfl rfl) fun _ => ?_
  have hon := respell_announceEnabled s { m with gate := { m.gate with enabled := true } } true
  dsimp only
  have hon' : ({ m.respell s with gate := { (m.respell s).gate with enabled := true } } :
      Machine).announceEnabled true = _ := hon.symm
  rw [hon']
  generalize { m with gate := { m.gate with enabled := true } }.announceEnabled true = m₁
  have hpower : (m₁.respell s).power = m₁.power := rfl
  rw [hpower]
  generalize m₁.power.takeResume = taken
  obtain ⟨resumes, power⟩ := taken
  cases resumes with
  | true => exact .done rfl rfl
  | false =>
    dsimp only
    generalize m₁.power.deferUntilWake = deferred
    obtain ⟨defers, power⟩ := deferred
    cases defers with
    | true => exact .done rfl rfl
    | false => exact (resumeDiscovery_respells s m₁).returning rfl

theorem disable_respells : m.disable.Respells s (Outcome.respell s) (m.respell s).disable := by
  unfold disable
  refine .ite Iff.rfl (fun _ => .done rfl rfl) fun _ => ?_
  refine .ite Iff.rfl (fun _ => .done rfl rfl) fun _ => ?_
  refine (suspendDiscovery_respells s { m with gate := { m.gate with enabled := false } }).andThen
    fun m => .done ?_ rfl
  rw [respell_announceEnabled, respell_enter]
  rfl

theorem setEnabled_respells (enabled : Bool) :
    (m.setEnabled enabled).Respells s (Outcome.respell s) ((m.respell s).setEnabled enabled) := by
  cases enabled with
  | true => exact (enable_respells s m).map fun _ => rfl
  | false => exact disable_respells s m

theorem applyDecision_respells (d : Decision) :
    (m.applyDecision d).Respells s id ((m.respell s).applyDecision d) := by
  have hdisarmed : (m.respell s).disarm .connectionAccept =
    (m.disarm .connectionAccept).respell s := rfl
  unfold applyDecision
  dsimp only
  rw [hdisarmed]
  generalize m.disarm .connectionAccept = m
  have hphase : (m.respell s).phase = m.phase := rfl
  have hpending : (m.respell s).session.pending =
      m.session.pending.map (PendingPeer.respell s) := rfl
  have haccepted : ((m.respell s).adopt (m.session.pending.map (PendingPeer.respell s))).enter
      .connectionAccepted = ((m.adopt m.session.pending).enter .connectionAccepted).respell s := by
    rw [respell_enter, respell_adopt]
    rfl
  rw [hphase, hpending, haccepted]
  generalize m.phase = phase
  cases phase with
  | directLaunchConnecting =>
    cases d with
    | accept =>
      have hlaunch : (m.session.pending.map (PendingPeer.respell s)).bind PendingPeer.launch? =
          (m.session.pending.bind PendingPeer.launch?).map (Launch.respell s) := by
        cases m.session.pending with
        | none => rfl
        | some p => exact p.launch?_respell s
      dsimp only
      rw [hlaunch]
      cases m.session.pending.bind PendingPeer.launch? with
      | none => exact .done rfl rfl
      | some l => exact .returning (.command rfl rfl) rfl
    | reject =>
      have hrejected : ((m.respell s).enter .connectionRejected).silencePlayer =
          (m.enter .connectionRejected).silencePlayer.respell s := by
        rw [respell_silencePlayer, respell_enter]
        rfl
      dsimp only
      rw [hrejected]
      exact (restartSessionOf_respells s _ _).returning rfl
  | connecting =>
    cases d with
    | accept => exact .returning (.command rfl rfl) rfl
    | reject => exact .returning (.command (respell_enter s m _ none).symm rfl) rfl
  | _ => exact .done rfl rfl

theorem decide_respells (text : String) :
    (m.decide text).Respells s (Outcome.respell s) ((m.respell s).decide text) := by
  unfold decide
  cases Decision.parse? text with
  | none => exact .done rfl rfl
  | some d => exact (applyDecision_respells s m d).map fun _ => rfl

theorem stopConnection_respells (mac name : String) :
    (m.stopConnection mac name).Respells s (Outcome.respell s)
      ((m.respell s).stopConnection (s.write mac) name) := by
  have hphase : (m.respell s).phase = m.phase := rfl
  have hknown : ((m.respell s).session.connected.any fun p =>
      p.matchesIdentity (s.write mac) name) =
        m.session.connected.any fun p => p.matchesIdentity mac name :=
    m.session.any_connected_respell s _ _ fun p => p.matchesIdentity_respell s mac name
  have hrestarted : ((m.respell s).session.preempting.map Peer.mac).getD (s.write mac) =
      s.write ((m.session.preempting.map Peer.mac).getD mac) := by
    show ((m.session.preempting.map (Peer.respell s)).map Peer.mac).getD _ = _
    cases m.session.preempting <;> rfl
  unfold stopConnection
  rw [hphase, hknown, hrestarted]
  generalize m.phase = phase
  cases phase with
  | playerLaunched => exact .done rfl rfl
  | connectionAccepted =>
    refine .ite Iff.rfl (fun _ => ?_) fun _ => .done rfl rfl
    have haborted : (m.respell s).enter .abortingConnection =
        (m.enter .abortingConnection).respell s := (respell_enter s m _ none).symm
    rw [haborted]
    exact (restartSession_respells s _ _).returning rfl
  | _ => exact .done rfl rfl

theorem endSession_respells (mac name : String) (phase : Phase) (reason : StopReason) :
    (m.endSession mac name phase reason).Respells s id
      ((m.respell s).endSession (s.write mac) name phase reason) := by
  unfold endSession
  refine .ite Iff.rfl (fun _ => .done rfl rfl) fun _ => ?_
  have hnotified : (if reason.isFailure then (m.respell s).notifyError ⟨s.write mac, name⟩ reason
      else m.respell s) =
        (if reason.isFailure then m.notifyError ⟨mac, name⟩ reason else m).respell s :=
    respell_ite s Iff.rfl (respell_notifyError s m ⟨mac, name⟩ reason).symm rfl
  dsimp only
  rw [hnotified]
  generalize (if reason.isFailure then m.notifyError ⟨mac, name⟩ reason else m) = m₁
  refine .ite Iff.rfl (fun _ => ?_) fun _ => .done ?_ rfl
  · exact (restartSession_respells s (m₁.disarm .connectionAccept) mac).returning rfl
  · rw [respell_enter]
    rfl

theorem playerStopped_respells (mac : String) (reason : StopReason) :
    (m.playerStopped mac reason).Respells s id
      ((m.respell s).playerStopped (s.write mac) reason) := by
  have hset := respell_setPlayer s m mac .stopped
  have hsuperseded : (m.respell s).session.isSuperseded (s.write mac) =
    m.session.isSuperseded mac := m.session.isSuperseded_respell s mac
  have hname : (m.respell s).session.nameFor (s.write mac) = m.session.nameFor mac :=
    m.session.nameFor_respell s mac
  unfold playerStopped
  rw [hsuperseded, hname, ← hset]
  refine .ite Iff.rfl (fun _ => .returning (.command rfl rfl) rfl) fun _ => ?_
  exact .ite Iff.rfl (fun _ => .done rfl rfl) fun _ => endSession_respells s _ mac _ _ reason

theorem updatePlayer_respells (mac state : String) (code : Nat) :
    (m.updatePlayer mac state code).Respells s (Outcome.respell s)
      ((m.respell s).updatePlayer (s.write mac) state code) := by
  unfold updatePlayer
  cases PlayerState.parse? state with
  | none => exact .done rfl rfl
  | some state =>
    cases state with
    | stopped => exact (playerStopped_respells s m mac _).map fun _ => rfl
    | _ => exact .done (respell_setPlayer s m mac _).symm rfl

/-! ## Reports -/

theorem endPreempted_respells : m.endPreempted.Respells s id (m.respell s).endPreempted := by
  have hpreempting : (m.respell s).session.preempting.isSome = m.session.preempting.isSome :=
    Option.isSome_map
  have hactive : (m.respell s).session.active = m.session.active.map (Peer.respell s) := rfl
  have hvacant : ((m.respell s).setPreempting none).setActive none =
    ((m.setPreempting none).setActive none).respell s := rfl
  unfold endPreempted
  dsimp only
  rw [hpreempting, hactive, hvacant]
  refine .ite Iff.rfl (fun _ => ?_) fun _ => .done rfl rfl
  cases m.session.active with
  | some p => exact .command (respell_notifyError s _ p .newConnection).symm rfl
  | none => exact .done rfl rfl

theorem considerRequest_respells (mac name : String) :
    (m.considerRequest mac name).Respells s id
      ((m.respell s).considerRequest (s.write mac) name) := by
  unfold considerRequest
  refine .ite Iff.rfl (fun _ => ?_) fun _ => .done ?_ rfl
  · exact (endPreempted_respells s m).andThen fun m =>
      (applyDecision_respells s m .accept).returning rfl
  · rw [respell_notifyRequest]
    rfl

/-- The peer that has launched is found in every spelling. -/
theorem filter_respell (cached : Option PendingPeer) (mac name : String) :
    ((cached.map (PendingPeer.respell s)).filter fun p => sameMac p.mac (s.write mac)).getD
        { mac := s.write mac, name } =
      ((cached.filter fun p => sameMac p.mac mac).getD { mac, name }).respell s := by
  cases cached with
  | none => rfl
  | some p =>
    rw [Option.map_some, Option.filter_some, Option.filter_some, p.sameMac_respell]
    split <;> rfl

theorem connectionRequested_respells (mac name : String) :
    (m.connectionRequested mac name).Respells s id
      ((m.respell s).connectionRequested (s.write mac) name) := by
  unfold connectionRequested
  refine .ite Iff.rfl (fun _ => .command rfl rfl) fun _ => ?_
  have hphase : (m.respell s).phase = m.phase := rfl
  have hpending : (m.respell s).session.pending =
      m.session.pending.map (PendingPeer.respell s) := rfl
  have hasked : (if m.phase = .playerLaunched then
      (m.respell s).setPreempting (some ⟨s.write mac, name⟩) else m.respell s) =
        (if m.phase = .playerLaunched then m.setPreempting (some ⟨mac, name⟩) else m).respell s :=
    respell_ite s Iff.rfl rfl rfl
  dsimp only
  rw [hphase, hpending, hasked, filter_respell]
  generalize (if m.phase = .playerLaunched then m.setPreempting (some ⟨mac, name⟩) else m) = m₁
  have htaken : (if m.phase = .directLaunchRequested then (m₁.respell s).enter
      .directLaunchConnecting (some (((m.session.pending.filter fun p =>
        sameMac p.mac mac).getD { mac, name }).respell s))
      else (m₁.respell s).enter .connecting (some { mac := s.write mac, name })) =
        (if m.phase = .directLaunchRequested then m₁.enter .directLaunchConnecting
          (some ((m.session.pending.filter fun p => sameMac p.mac mac).getD { mac, name }))
          else m₁.enter .connecting (some { mac, name })).respell s :=
    respell_ite s Iff.rfl (respell_enter s m₁ _ (some _)).symm
      (respell_enter s m₁ _ (some { mac, name })).symm
  rw [htaken]
  exact considerRequest_respells s _ mac name

theorem directLaunch_respells (l : Launch) :
    (m.directLaunch l).Respells s id ((m.respell s).directLaunch (l.respell s)) := by
  unfold directLaunch
  refine .ite Iff.rfl (fun _ => .command rfl rfl) fun _ => ?_
  have hasked : (if m.phase = .playerLaunched then
      (m.respell s).setPreempting (some (l.respell s).peer) else m.respell s) =
        (if m.phase = .playerLaunched then m.setPreempting (some l.peer) else m).respell s :=
    respell_ite s Iff.rfl rfl rfl
  have hphase : (m.respell s).phase = m.phase := rfl
  dsimp only
  rw [hphase, hasked]
  generalize (if m.phase = .playerLaunched then m.setPreempting (some l.peer) else m) = m₁
  have htaken : (m₁.respell s).enter .directLaunchRequested (some (.ofLaunch (l.respell s))) =
      (m₁.enter .directLaunchRequested (some (.ofLaunch l))).respell s :=
    (respell_enter s m₁ _ (some (.ofLaunch l))).symm
  rw [htaken]
  exact connectionRequested_respells s _ l.sourceMac l.sourceName

theorem acceptedLaunch_respells (l : Launch) :
    (m.acceptedLaunch l).Respells s id ((m.respell s).acceptedLaunch (l.respell s)) := by
  have hknown : ((m.respell s).session.connected.any fun p =>
      sameMac p.mac (l.respell s).sourceMac) =
        m.session.connected.any fun p => sameMac p.mac l.sourceMac :=
    m.session.any_connected_respell s _ _ fun p => p.sameMac_respell s l.sourceMac
  have hlaunched : (((m.respell s).setActive (some (l.respell s).peer)).setPreempting none).enter
      .playerLaunched =
        (((m.setActive (some l.peer)).setPreempting none).enter .playerLaunched).respell s := by
    rw [respell_enter]
    rfl
  have hphase : (m.respell s).phase = m.phase := rfl
  unfold acceptedLaunch
  dsimp only
  rw [hphase, hknown, hlaunched]
  refine .ite Iff.rfl (fun _ => ?_) fun _ => .done rfl rfl
  refine .ite Iff.rfl (fun _ => .command rfl rfl) fun _ => .done ?_ rfl
  exact (respell_notifyLaunch s _ l).symm

theorem discoveryRestarted_respells :
    m.discoveryRestarted.Respells s id (m.respell s).discoveryRestarted := by
  exact .done (respell_ite s Iff.rfl (respell_enter s m _ none).symm rfl) rfl

theorem wifiChanged_respells (state : WifiState) :
    (m.wifiChanged state).Respells s id ((m.respell s).wifiChanged state) := by
  unfold wifiChanged
  have hradio : (m.respell s).radio = m.radio := rfl
  rw [hradio]
  generalize m.radio.change state = change
  obtain ⟨effect, radio⟩ := change
  cases effect with
  | suppress =>
    exact (suspendDiscovery_respells s { m with radio }).andThen fun _ => .done rfl rfl
  | resume => exact resumeDiscovery_respells s ({ m with radio }.disarm .radioConnect)
  | ignore => exact .done rfl rfl

theorem powerModeChanged_respells (mode : PowerMode) :
    (m.powerModeChanged mode).Respells s id ((m.respell s).powerModeChanged mode) := by
  unfold powerModeChanged
  have hpower : (m.respell s).power.change mode (m.respell s).gate.enabled =
      m.power.change mode m.gate.enabled := rfl
  rw [hpower]
  generalize m.power.change mode m.gate.enabled = change
  obtain ⟨effect, power⟩ := change
  cases effect with
  | resume => exact .done rfl rfl
  | suspend stop =>
    have hasleep (m : Machine) : (m.respell s).fallAsleep = m.fallAsleep.respell s := by
      unfold fallAsleep
      exact respell_ite s Iff.rfl (respell_enter s m _ none).symm rfl
    have hstopped : (if stop then (({ m with power }.disarm .connectionAccept).disarm
        .radioConnect).suspendDiscovery else .done (({ m with power }.disarm
        .connectionAccept).disarm .radioConnect) ()).Respells s id
          (if stop then (({ m.respell s with power }.disarm .connectionAccept).disarm
            .radioConnect).suspendDiscovery else .done (({ m.respell s with power }.disarm
            .connectionAccept).disarm .radioConnect) ()) :=
      .ite Iff.rfl (fun _ => suspendDiscovery_respells s _) fun _ => .done rfl rfl
    exact hstopped.andThen fun m => .done (hasleep m) rfl
  | ignore => exact .done rfl rfl

theorem receive_respells (r : Report) :
    (m.receive r).Respells s id ((m.respell s).receive (r.respell s)) := by
  cases r with
  | connectionRequest mac name => exact connectionRequested_respells s m mac name
  | launchRequest l reported =>
    cases reported with
    | true => exact acceptedLaunch_respells s m l
    | false => exact directLaunch_respells s m l
  | discoveryRestarted => exact discoveryRestarted_respells s m
  | powerModeChanged old new => exact powerModeChanged_respells s m new
  | networkStandbyChanged enabled => exact .done rfl rfl
  | wifiStateChanged state => exact wifiChanged_respells s m state

/-! ## Starting, shutting down and alarms -/

theorem start_respells : m.start.Respells s id (m.respell s).start := by
  unfold start
  refine (refreshFriendlyName_respells s m).bind fun m known => ?_
  have hretried : (if known then m.respell s else (m.respell s).armFriendlyNameRetry) =
      (if known then m else m.armFriendlyNameRetry).respell s :=
    respell_ite s Iff.rfl rfl rfl
  dsimp only [id]
  rw [hretried]
  generalize (if known then m else m.armFriendlyNameRetry) = m₁
  refine .ite Iff.rfl (fun _ => ?_) fun _ => .done rfl rfl
  exact (setEnabled_respells s m₁ true).returning rfl

theorem shutdown_respells : m.shutdown.Respells s id (m.respell s).shutdown := by
  unfold shutdown
  have hdisarmed : (m.respell s).disarmAll = m.disarmAll.respell s := rfl
  have hreset (m : Machine) : (m.respell s).reset = m.reset.respell s := rfl
  dsimp only
  rw [hdisarmed]
  generalize m.disarmAll = m₁
  have hgate : (m₁.respell s).gate.deactivate? = m₁.gate.deactivate? := rfl
  rw [hgate]
  cases m₁.gate.deactivate? with
  | none => exact .done (hreset m₁) rfl
  | some gate => exact (Run.Respells.command rfl rfl).andThen fun m => .done (hreset m) rfl

theorem connectionAcceptExpired_respells (n : Nat) :
    (m.connectionAcceptExpired n).Respells s id
      ((m.respell s).connectionAcceptExpired n) := by
  have hclaimed : (m.respell s).claim .connectionAccept n = ((m.claim .connectionAccept n).1,
    (m.claim .connectionAccept n).2.respell s) := rfl
  unfold connectionAcceptExpired
  rw [hclaimed]
  generalize m.claim .connectionAccept n = claimed
  obtain ⟨won, m₁⟩ := claimed
  cases won with
  | false => exact .done rfl rfl
  | true =>
    have hpending : (m₁.respell s).session.pending =
        m₁.session.pending.map (PendingPeer.respell s) := rfl
    dsimp only
    rw [hpending]
    refine .ite Iff.rfl (fun _ => ?_) fun _ => .done rfl rfl
    cases m₁.session.pending with
    | none => exact restartSessionOf_respells s m₁.silencePlayer none
    | some p =>
      have htold : ((m₁.respell s).notifyError (p.respell s).peer .timeout).silencePlayer =
          (m₁.notifyError p.peer .timeout).silencePlayer.respell s := by
        rw [respell_silencePlayer, respell_notifyError]
        rfl
      rw [Option.map_some]
      dsimp only
      rw [htold]
      exact restartSessionOf_respells s _ (some p)

theorem radioConnectExpired_respells (n : Nat) :
    (m.radioConnectExpired n).Respells s id ((m.respell s).radioConnectExpired n) := by
  have hclaimed : (m.respell s).claim .radioConnect n = ((m.claim .radioConnect n).1,
    (m.claim .radioConnect n).2.respell s) := rfl
  unfold radioConnectExpired
  rw [hclaimed]
  generalize m.claim .radioConnect n = claimed
  obtain ⟨won, m₁⟩ := claimed
  cases won with
  | false => exact .done rfl rfl
  | true =>
    have hradio : (m₁.respell s).radio = m₁.radio := rfl
    dsimp only
    rw [hradio]
    generalize m₁.radio.timeOut = expired
    obtain ⟨effect, radio⟩ := expired
    cases effect with
    | resume => exact resumeDiscovery_respells s { m₁ with radio }
    | _ => exact .done rfl rfl

theorem retryFriendlyName_respells (n : Nat) :
    (m.retryFriendlyName n).Respells s id ((m.respell s).retryFriendlyName n) := by
  rw [retryFriendlyName_eq, retryFriendlyName_eq]
  refine .ite Iff.rfl (fun _ => ?_) fun _ => .done rfl rfl
  refine (refreshFriendlyName_respells s m).bind fun m known => .done ?_ rfl
  exact respell_ite s Iff.rfl rfl rfl

theorem ring_respells (a : Timer.Alarm Task) :
    (m.ring a).Respells s id ((m.respell s).ring a) := by
  unfold ring
  cases a.task with
  | resumeDiscovery => exact resumeDiscovery_respells s m
  | watchdog kind =>
    cases kind with
    | connectionAccept => exact connectionAcceptExpired_respells s m a.id
    | radioConnect => exact radioConnectExpired_respells s m a.id
    | friendlyNameRetry => exact retryFriendlyName_respells s m a.id

theorem ofOutcome_respell (outcome : Outcome) :
    Reply.ofOutcome (outcome.respell s) = (Reply.ofOutcome outcome).respell s := by
  cases outcome <;> rfl

theorem perform_respells (c : Call) :
    (m.perform c).Respells s (Reply.respell s) ((m.respell s).perform (c.respell s)) := by
  cases c with
  | start => exact (start_respells s m).returning rfl
  | shutdown => exact (shutdown_respells s m).returning rfl
  | setEnabled enabled => exact (setEnabled_respells s m enabled).map (ofOutcome_respell s)
  | isEnabled | phase => exact .done rfl rfl
  | decide text => exact (decide_respells s m text).map (ofOutcome_respell s)
  | stop mac name => exact (stopConnection_respells s m mac name).map (ofOutcome_respell s)
  | player mac state code =>
    exact (updatePlayer_respells s m mac state code).map (ofOutcome_respell s)
  | backendDiscovery enabled =>
    have hpassed : (m.setBackendDiscovery enabled).Respells s id
        ((m.respell s).setBackendDiscovery enabled) := .returning (.command rfl rfl) rfl
    exact hpassed.map fun _ => rfl
  | report r => exact (receive_respells s m r).returning rfl

end Machine

/-- A machine does the same about an occurrence in every spelling. -/
theorem Occurrence.run_respells (o : Occurrence) (m : Machine) :
    (o.run m).Respells s (Reply.respell s) ((o.respell s).run (m.respell s)) := by
  cases o with
  | call c => exact Machine.perform_respells s m c
  | alarm a =>
    show Run.Respells s (Reply.respell s) (if a.isVoid then _ else _) (if a.isVoid then _ else _)
    refine .ite Iff.rfl (fun _ => .done rfl rfl) fun _ => ?_
    exact (Machine.ring_respells s (m.withTimetable (m.watchdogs.timetable.start a)) a).returning rfl
  | elapse ms | settle => exact .done rfl rfl

end CastReceiver
