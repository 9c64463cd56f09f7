import CastReceiver.Proofs.Session.Deadline
import CastReceiver.Proofs.World

/-!
# Who minds the name of the device

Only a start and the watchdog that looks the name up again have anything to do with the name of the
device. All other work is aloof: it neither looks the name up nor passes it on, and it leaves the
alarm of that watchdog as it is, whatever other watchdogs it sets and cancels.
-/
namespace CastReceiver

namespace Timer.Watchdogs

variable {w w' w'' : Watchdogs Task} {kind k : WatchdogKind}

/-- Nothing has been done about the watchdog of a kind. -/
structure Undisturbed (kind : WatchdogKind) (w w' : Watchdogs Task) : Prop where
  sound : w'.Sound
  slot_eq : w'.slot kind = w.slot kind
  mem : ∀ a ∈ w.timetable.alarms, w.slot kind = some a.id → a ∈ w'.timetable.alarms

theorem Undisturbed.refl (hw : w.Sound) : Undisturbed kind w w := ⟨hw, rfl, fun _ ha _ => ha⟩

theorem Undisturbed.trans (h : Undisturbed kind w w') (h' : Undisturbed kind w' w'') :
    Undisturbed kind w w'' where
  sound := h'.sound
  slot_eq := h'.slot_eq.trans h.slot_eq
  mem a ha hslot := h'.mem a (h.mem a ha hslot) (h.slot_eq.trans hslot)

theorem undisturbed_cancel (hw : w.Sound) (h : k ≠ kind) :
    Undisturbed kind w (w.cancel k).2 where
  sound := hw.cancel k
  slot_eq := by rw [cancel_slot, if_neg h.symm]
  mem a ha hslot := by
    have htask := hw.owned kind _ hslot a ha rfl
    refine mem_cancel ha fun id hid => hw.id_ne hid ha ?_
    rw [htask]
    exact fun hsame => h (Task.watchdog.inj hsame).symm

theorem undisturbed_emptySlot (hw : w.Sound) (h : k ≠ kind) :
    Undisturbed kind w (w.setSlot k none) :=
  ⟨hw.emptySlot k, if_neg h.symm, fun _ ha _ => ha⟩

theorem undisturbed_add (hw : w.Sound) (delay : Nat) (period : Option Nat) {task : Task}
    (hprompt : task = .resumeDiscovery → period = none) :
    Undisturbed kind w { w with timetable := (w.timetable.add delay period task).2 } where
  sound := hw.add delay period task hprompt
  slot_eq := rfl
  mem a ha _ := by
    rw [add_alarms _ _ _ hw]
    exact List.mem_append_left _ ha

theorem undisturbed_install (hw : w.Sound) (h : k ≠ kind) (delay : Nat) (period : Option Nat) :
    Undisturbed kind w (w.install k (w.timetable.add delay period (.watchdog k))).2 where
  sound := hw.install delay period k
  slot_eq := by rw [install_slot, if_neg h.symm]
  mem a ha hslot := by
    have hadded : Undisturbed kind w
        { w with timetable := (w.timetable.add delay period (.watchdog k)).2 } :=
      undisturbed_add hw delay period nofun
    exact (hadded.trans (undisturbed_cancel hadded.sound h)).mem a ha hslot

/-- Another alarm goes off. -/
theorem undisturbed_start (hw : w.Sound) {a : Alarm Task} (h : w.slot kind ≠ some a.id) :
    Undisturbed kind w { w with timetable := w.timetable.start a } where
  sound := hw.start a
  slot_eq := rfl
  mem b hb hslot := by
    refine w.timetable.exists_mem_start a hb fun hid => h ?_
    rw [← hid]
    exact hslot

/-- Another alarm is finished. -/
theorem undisturbed_remove (hw : w.Sound) {id : Nat} (h : w.slot kind ≠ some id) :
    Undisturbed kind w { w with timetable := w.timetable.remove id } where
  sound := by
    refine hw.thin rfl rfl (List.filter_sublist.map _) ?_ fun _ _ hslot => hslot
    exact fun b hb => ⟨b, List.mem_of_mem_filter hb, rfl, rfl, rfl⟩
  slot_eq := rfl
  mem b hb hslot := by
    refine List.mem_filter.2 ⟨hb, bne_iff_ne.2 fun hid => h ?_⟩
    rw [← hid]
    exact hslot

/-- Time passes, and cancelled alarms are noticed. -/
theorem undisturbed_clock (hw : w.Sound) (now : Nat) (stopping : List Nat) :
    Undisturbed kind w { w with timetable := { w.timetable with now, stopping } } where
  sound := ⟨hw.running, hw.fresh, hw.distinct, hw.taken, hw.owned, hw.prompt⟩
  slot_eq := rfl
  mem _ ha _ := ha

end Timer.Watchdogs

/-! ## What concerns the name -/

/-- What becomes of the name of the device. -/
inductive NameNews where
  | lookedUp (time : Nat)
  | passedOn (time : Nat) (name : String)
  deriving DecidableEq

def Entry.nameNews? (e : Entry) : Option NameNews :=
  match e.happening with
  | .nameLookup => some (.lookedUp e.time)
  | .event (.command (.setFriendlyName name)) => some (.passedOn e.time name)
  | _ => none

/-- What concerns the name of the device, but for the watchdog. -/
structure Errand where
  settings : SessionSettings
  source : Option NameSource
  lookups : Nat
  known : Option String
  news : List NameNews
  now : Nat

namespace Machine

/-- All that has become of the name so far. -/
def nameNews (m : Machine) : List NameNews :=
  m.journal.filterMap Entry.nameNews?

def errand (m : Machine) : Errand where
  settings := m.settings
  source := m.nameSource
  lookups := m.lookups
  known := m.session.friendlyName
  news := m.nameNews
  now := m.now

/-- The machine has been `s`, and nothing that has happened since concerns the name. -/
structure Aloof (s m : Machine) : Prop where
  errand : m.errand = s.errand
  watchdogs : s.watchdogs.Undisturbed .friendlyNameRetry m.watchdogs

variable {s m m' : Machine}

theorem Aloof.refl (hm : m.watchdogs.Sound) : m.Aloof m := ⟨rfl, .refl hm⟩

theorem Aloof.sound (h : s.Aloof m) : m.watchdogs.Sound := h.watchdogs.sound

/-- What concerns neither the name nor the timers. -/
theorem Aloof.congr (h : s.Aloof m) (herrand : m'.errand = m.errand)
    (hwatchdogs : m'.watchdogs = m.watchdogs) : s.Aloof m' :=
  ⟨herrand.trans h.errand, hwatchdogs ▸ h.watchdogs⟩

theorem errand_emit (m : Machine) {e : Event}
    (he : (⟨m.now, .event e⟩ : Entry).nameNews? = none) : (m.emit e).errand = m.errand := by
  have hnews : (m.emit e).nameNews = m.nameNews := by
    show (m.journal ++ [_]).filterMap Entry.nameNews? = _
    rw [List.filterMap_append, List.filterMap_cons_none he]
    exact List.append_nil _
  show (⟨_, _, _, _, (m.emit e).nameNews, _⟩ : Errand) = _
  rw [hnews]
  rfl

theorem Aloof.emit (h : s.Aloof m) {e : Event}
    (he : (⟨m.now, .event e⟩ : Entry).nameNews? = none) : s.Aloof (m.emit e) :=
  h.congr (m.errand_emit he) rfl

theorem Aloof.enter (h : s.Aloof m) (target : Phase) (pending : Option PendingPeer) :
    s.Aloof (m.enter target pending) := by
  refine h.congr ?_ (enter_watchdogs ..)
  unfold Machine.enter
  dsimp only
  split
  · rfl
  · refine Eq.trans (errand_emit _ ?_) rfl
    rfl

theorem Aloof.setPlayer (h : s.Aloof m) (mac : String) (state : PlayerState) :
    s.Aloof (m.setPlayer mac state) :=
  (h.congr rfl rfl : s.Aloof { m with session := { m.session with player := state } }).emit rfl

theorem Aloof.adopt (h : s.Aloof m) (pending : Option PendingPeer) :
    s.Aloof (m.adopt pending) := by
  unfold Machine.adopt
  split
  · exact h
  · split
    · exact h.congr rfl rfl
    · exact h

/-- Timers may be set and cancelled, as long as the watchdog of the name is left alone. -/
theorem Aloof.timers (h : s.Aloof m) {watchdogs : Timer.Watchdogs Task}
    (hnow : watchdogs.timetable.now = m.now)
    (hwatchdogs : m.watchdogs.Undisturbed .friendlyNameRetry watchdogs) :
    s.Aloof { m with watchdogs } where
  errand := by
    rw [← h.errand]
    show (⟨_, _, _, _, _, watchdogs.timetable.now⟩ : Errand) = _
    rw [hnow]
    rfl
  watchdogs := h.watchdogs.trans hwatchdogs

theorem Aloof.disarm (h : s.Aloof m) (kind : Timer.WatchdogKind)
    (hkind : kind ≠ .friendlyNameRetry) : s.Aloof (m.disarm kind) :=
  h.timers (Timer.Watchdogs.cancel_now ..) (Timer.Watchdogs.undisturbed_cancel h.sound hkind)

theorem Aloof.arm (h : s.Aloof m) (kind : Timer.WatchdogKind) (hkind : kind ≠ .friendlyNameRetry)
    (delay : Nat) : s.Aloof (m.arm kind delay) :=
  h.timers (Timer.Watchdogs.install_now ..)
    (Timer.Watchdogs.undisturbed_install h.sound hkind delay none)

theorem Aloof.deferResume (h : s.Aloof m) : s.Aloof m.deferResume :=
  h.timers rfl (Timer.Watchdogs.undisturbed_add h.sound 0 none fun _ => rfl)

end Machine

/-! ## Aloof work -/

namespace Run

variable {α β : Type} {s m : Machine}

/-- If nobody interferes, a run ends without having minded the name since the machine was `s`. -/
def StaysAloof (s : Machine) (r : Run α) : Prop := s.Aloof r.quietly.1

@[simp] theorem staysAloof_done {a : α} : (done m a).StaysAloof s ↔ s.Aloof m := Iff.rfl

@[simp] theorem staysAloof_map {r : Run α} {f : α → β} :
    (r.map f).StaysAloof s ↔ r.StaysAloof s := by
  rw [StaysAloof, quietly_map]
  rfl

@[simp] theorem staysAloof_returning {r : Run α} {b : β} :
    (r.returning b).StaysAloof s ↔ r.StaysAloof s :=
  staysAloof_map

theorem StaysAloof.andThen {r : Run α} {f : Machine → Run β} (hr : r.StaysAloof s)
    (hf : ∀ m, s.Aloof m → (f m).StaysAloof s) : (r.andThen f).StaysAloof s := by
  rw [StaysAloof, quietly_andThen]
  exact hf _ hr

theorem command_aloof (h : s.Aloof m) {c : Command}
    (hc : (⟨m.now, .event (.command c)⟩ : Entry).nameNews? = none) :
    (m.command c).StaysAloof s :=
  h.emit hc

end Run

namespace Machine

variable {s m : Machine}

theorem resumeDiscovery_aloof (h : s.Aloof m) : m.resumeDiscovery.StaysAloof s := by
  rw [resumeDiscovery]
  split
  · rw [Run.staysAloof_done]
    split
    · exact h
    · exact h.arm .radioConnect nofun _
  · split
    case h_1 => exact h
    case h_2 gate _ =>
      have hgate : s.Aloof { m with gate } := h.congr rfl rfl
      refine Run.command_aloof ?_ rfl
      split
      · exact hgate.enter _ _
      · exact hgate

theorem suspendDiscovery_aloof (h : s.Aloof m) : m.suspendDiscovery.StaysAloof s := by
  rw [suspendDiscovery]
  split
  case h_1 => exact h
  case h_2 gate _ =>
    have hgate : s.Aloof { m with gate } := h.congr rfl rfl
    refine Run.command_aloof ?_ rfl
    split
    · exact hgate.enter _ _
    · exact hgate

theorem restartSession_aloof (h : s.Aloof m) (mac : String) :
    (m.restartSession mac).StaysAloof s := by
  rw [restartSession]
  split
  · exact h.enter _ _
  · exact Run.command_aloof (h.enter _ _) rfl

theorem restartSessionOf_aloof (h : s.Aloof m) (pending : Option PendingPeer) :
    (m.restartSessionOf pending).StaysAloof s := by
  cases pending with
  | some p => exact restartSession_aloof h p.mac
  | none => exact h.enter _ _

/-! ### Requests -/

theorem enable_aloof (h : s.Aloof m) : m.enable.StaysAloof s := by
  rw [enable]
  split
  · exact h
  · have hon : s.Aloof
        ({ m with gate := { m.gate with enabled := true } }.announceEnabled true) :=
      (h.congr rfl rfl : s.Aloof { m with gate := { m.gate with enabled := true } }).emit rfl
    dsimp only
    split
    · exact Aloof.deferResume (hon.congr rfl rfl)
    · split
      · exact hon.congr rfl rfl
      · exact Run.staysAloof_returning.2 (resumeDiscovery_aloof hon)

theorem disable_aloof (h : s.Aloof m) : m.disable.StaysAloof s := by
  rw [disable]
  split
  · exact h
  · split
    · exact h
    · have hoff : s.Aloof { m with gate := { m.gate with enabled := false } } := h.congr rfl rfl
      refine (suspendDiscovery_aloof hoff).andThen fun m h => ?_
      have hdisarmed := (h.disarm .connectionAccept nofun).disarm .radioConnect nofun
      exact (hdisarmed.enter .idle none).emit rfl

theorem applyDecision_aloof (h : s.Aloof m) (d : Decision) :
    (m.applyDecision d).StaysAloof s := by
  have hdisarmed : s.Aloof (m.disarm .connectionAccept) := h.disarm .connectionAccept nofun
  unfold applyDecision
  dsimp only
  generalize m.disarm .connectionAccept = m at hdisarmed ⊢
  have haccepted : s.Aloof ((m.adopt m.session.pending).enter .connectionAccepted) :=
    (hdisarmed.adopt _).enter _ _
  have hrejected : s.Aloof (m.enter .connectionRejected) := hdisarmed.enter _ _
  split
  case h_1 =>
    split
    · exact Run.staysAloof_returning.2 (Run.command_aloof haccepted rfl)
    · exact haccepted
  case h_2 =>
    have hsilenced : s.Aloof (m.enter .connectionRejected).silencePlayer :=
      hrejected.congr rfl rfl
    exact Run.staysAloof_returning.2 (restartSessionOf_aloof hsilenced _)
  case h_3 => exact Run.staysAloof_returning.2 (Run.command_aloof haccepted rfl)
  case h_4 => exact Run.staysAloof_returning.2 (Run.command_aloof hrejected rfl)
  case h_5 => exact hdisarmed

theorem decide_aloof (h : s.Aloof m) (text : String) : (m.decide text).StaysAloof s := by
  rw [decide]
  split
  · exact h
  · exact Run.staysAloof_map.2 (applyDecision_aloof h _)

theorem stopConnection_aloof (h : s.Aloof m) (mac name : String) :
    (m.stopConnection mac name).StaysAloof s := by
  rw [stopConnection]
  split
  case h_1 | h_3 => exact h
  case h_2 =>
    split
    · exact Run.staysAloof_returning.2 (restartSession_aloof (h.enter _ _) _)
    · exact h

theorem endSession_aloof (h : s.Aloof m) (mac name : String) (phase : Phase)
    (reason : StopReason) : (m.endSession mac name phase reason).StaysAloof s := by
  rw [endSession]
  split
  · exact h
  · have hdisarmed : s.Aloof ((if reason.isFailure then m.notifyError ⟨mac, name⟩ reason
        else m).disarm .connectionAccept) := by
      refine Aloof.disarm ?_ .connectionAccept nofun
      split
      · exact h.emit rfl
      · exact h
    dsimp only
    generalize (if reason.isFailure then m.notifyError ⟨mac, name⟩ reason
      else m).disarm .connectionAccept = m at hdisarmed ⊢
    split
    · exact Run.staysAloof_returning.2 (restartSession_aloof hdisarmed mac)
    · exact hdisarmed.enter _ _

theorem updatePlayer_aloof (h : s.Aloof m) (mac state : String) (code : Nat) :
    (m.updatePlayer mac state code).StaysAloof s := by
  rw [updatePlayer]
  split
  · exact h
  · rw [Run.staysAloof_map, playerStopped]
    split
    · exact Run.staysAloof_returning.2 (Run.command_aloof (h.setPlayer _ _) rfl)
    · split
      · exact h
      · exact endSession_aloof (h.setPlayer _ _) _ _ _ _
  · exact h.setPlayer _ _

/-! ### Reports -/

theorem endPreempted_aloof (h : s.Aloof m) : m.endPreempted.StaysAloof s := by
  have hended : s.Aloof ((m.setPreempting none).setActive none) := h.congr rfl rfl
  rw [endPreempted]
  split
  · dsimp only
    split
    · exact Run.command_aloof (hended.emit rfl) rfl
    · exact hended
  · exact h

theorem considerRequest_aloof (h : s.Aloof m) (mac name : String) :
    (m.considerRequest mac name).StaysAloof s := by
  rw [considerRequest]
  split
  · refine (endPreempted_aloof h).andThen fun m h => ?_
    exact Run.staysAloof_returning.2 (applyDecision_aloof h .accept)
  · exact (h.arm .connectionAccept nofun _).emit rfl

theorem connectionRequested_aloof (h : s.Aloof m) (mac name : String) :
    (m.connectionRequested mac name).StaysAloof s := by
  rw [connectionRequested]
  split
  · exact Run.command_aloof h rfl
  · have hasked : s.Aloof
        (if m.phase = .playerLaunched then m.setPreempting (some ⟨mac, name⟩) else m) := by
      split
      · exact h.congr rfl rfl
      · exact h
    apply considerRequest_aloof
    split
    · exact hasked.enter _ _
    · exact hasked.enter _ _

theorem directLaunch_aloof (h : s.Aloof m) (l : Launch) : (m.directLaunch l).StaysAloof s := by
  rw [directLaunch]
  split
  · exact Run.command_aloof h rfl
  · refine connectionRequested_aloof (Aloof.enter ?_ _ _) _ _
    split
    · exact h.congr rfl rfl
    · exact h

theorem acceptedLaunch_aloof (h : s.Aloof m) (l : Launch) :
    (m.acceptedLaunch l).StaysAloof s := by
  rw [acceptedLaunch]
  split
  · have hlaunched : s.Aloof (((m.setActive (some l.peer)).setPreempting none).enter
        .playerLaunched) :=
      (h.congr rfl rfl : s.Aloof ((m.setActive (some l.peer)).setPreempting none)).enter _ _
    dsimp only
    split
    · exact Run.command_aloof hlaunched rfl
    · exact hlaunched.emit rfl
  · exact h

theorem discoveryRestarted_aloof (h : s.Aloof m) : m.discoveryRestarted.StaysAloof s := by
  rw [discoveryRestarted, Run.staysAloof_done]
  split
  · exact h.enter _ _
  · exact h

theorem wifiChanged_aloof (h : s.Aloof m) (state : WifiState) :
    (m.wifiChanged state).StaysAloof s := by
  have hradio (radio : Radio) : s.Aloof { m with radio } := h.congr rfl rfl
  rw [wifiChanged]
  split
  case h_1 radio _ =>
    refine (suspendDiscovery_aloof (hradio radio)).andThen fun m h => ?_
    exact h.arm .radioConnect nofun _
  case h_2 radio _ => exact resumeDiscovery_aloof ((hradio radio).disarm .radioConnect nofun)
  case h_3 radio _ => exact hradio radio

theorem powerModeChanged_aloof (h : s.Aloof m) (mode : PowerMode) :
    (m.powerModeChanged mode).StaysAloof s := by
  have hpower (power : Power) : s.Aloof { m with power } := h.congr rfl rfl
  rw [powerModeChanged]
  split
  case h_1 power _ => exact (hpower power).deferResume
  case h_2 stop power _ =>
    have hdisarmed := ((hpower power).disarm .connectionAccept nofun).disarm .radioConnect nofun
    refine Run.StaysAloof.andThen ?_ fun m h => ?_
    · split
      · exact suspendDiscovery_aloof hdisarmed
      · exact hdisarmed
    · rw [Run.staysAloof_done, fallAsleep]
      split
      · exact h.enter _ _
      · exact h
  case h_3 power _ => exact hpower power

theorem receive_aloof (h : s.Aloof m) (r : Report) : (m.receive r).StaysAloof s := by
  cases r with
  | connectionRequest mac name => exact connectionRequested_aloof h mac name
  | launchRequest l reported =>
    cases reported with
    | false => exact directLaunch_aloof h l
    | true => exact acceptedLaunch_aloof h l
  | discoveryRestarted => exact discoveryRestarted_aloof h
  | powerModeChanged old new => exact powerModeChanged_aloof h new
  | networkStandbyChanged enabled => exact h.congr rfl rfl
  | wifiStateChanged state => exact wifiChanged_aloof h state

/-- Only a start minds the name, and a shutdown everything. -/
theorem perform_aloof (h : s.Aloof m) {c : Call} (hstart : c ≠ .start)
    (hshutdown : c ≠ .shutdown) : (m.perform c).StaysAloof s := by
  cases c with
  | start => exact absurd rfl hstart
  | shutdown => exact absurd rfl hshutdown
  | setEnabled enabled =>
    refine Run.staysAloof_map.2 ?_
    cases enabled with
    | false => exact disable_aloof h
    | true => exact Run.staysAloof_map.2 (enable_aloof h)
  | isEnabled | phase => exact h
  | decide text => exact Run.staysAloof_map.2 (decide_aloof h text)
  | stop mac name => exact Run.staysAloof_map.2 (stopConnection_aloof h mac name)
  | player mac state code => exact Run.staysAloof_map.2 (updatePlayer_aloof h mac state code)
  | backendDiscovery enabled =>
    exact Run.staysAloof_map.2 (Run.staysAloof_returning.2 (Run.command_aloof h rfl))
  | report r => exact Run.staysAloof_returning.2 (receive_aloof h r)

/-! ### Alarms -/

theorem claim_aloof (h : s.Aloof m) (kind : Timer.WatchdogKind)
    (hkind : kind ≠ .friendlyNameRetry) (id : Nat) : s.Aloof (m.claim kind id).2 := by
  show s.Aloof { m with watchdogs := (m.watchdogs.claim kind id).2 }
  rw [Timer.Watchdogs.claim]
  split
  · exact h.timers rfl (Timer.Watchdogs.undisturbed_emptySlot h.sound hkind)
  · exact h

theorem connectionAcceptExpired_aloof (h : s.Aloof m) (id : Nat) :
    (m.connectionAcceptExpired id).StaysAloof s := by
  have hclaimed := claim_aloof h .connectionAccept nofun id
  rw [connectionAcceptExpired]
  generalize m.claim .connectionAccept id = claimed at hclaimed ⊢
  obtain ⟨won, m₁⟩ := claimed
  cases won with
  | false => exact hclaimed
  | true =>
    dsimp only at hclaimed ⊢
    split
    · cases m₁.session.pending with
      | none =>
        exact restartSessionOf_aloof (hclaimed.congr rfl rfl : s.Aloof m₁.silencePlayer) none
      | some p =>
        have htold : s.Aloof (m₁.notifyError p.peer .timeout) := hclaimed.emit rfl
        exact restartSessionOf_aloof
          (htold.congr rfl rfl : s.Aloof (m₁.notifyError p.peer .timeout).silencePlayer) (some p)
    · exact hclaimed

theorem radioConnectExpired_aloof (h : s.Aloof m) (id : Nat) :
    (m.radioConnectExpired id).StaysAloof s := by
  have hclaimed := claim_aloof h .radioConnect nofun id
  rw [radioConnectExpired]
  generalize m.claim .radioConnect id = claimed at hclaimed ⊢
  obtain ⟨won, m₁⟩ := claimed
  cases won with
  | false => exact hclaimed
  | true =>
    have hradio (radio : Radio) : s.Aloof { m₁ with radio } := hclaimed.congr rfl rfl
    dsimp only
    split
    · exact resumeDiscovery_aloof (hradio _)
    · exact hradio _

/-- An alarm that is not that of the watchdog of the name, or not any more, leaves the name alone. -/
theorem ring_aloof (h : s.Aloof m) {a : Timer.Alarm Task}
    (ha : m.watchdogs.slot .friendlyNameRetry ≠ some a.id) : (m.ring a).StaysAloof s := by
  rw [ring]
  split
  case h_1 => exact resumeDiscovery_aloof h
  case h_2 kind _ =>
    cases kind with
    | connectionAccept => exact connectionAcceptExpired_aloof h _
    | radioConnect => exact radioConnectExpired_aloof h _
    | friendlyNameRetry =>
      have hcurrent : ¬m.watchdogs.isCurrent .friendlyNameRetry a.id = true :=
        fun hcurrent => ha (beq_iff_eq.1 hcurrent)
      rw [expire, retryFriendlyName_eq, if_neg hcurrent]
      exact h.timers rfl (Timer.Watchdogs.undisturbed_remove h.sound ha)

end Machine

end CastReceiver
