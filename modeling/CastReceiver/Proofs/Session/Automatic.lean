import CastReceiver.Proofs.Session.Bids
import CastReceiver.Proofs.Session.Seats
import CastReceiver.Proofs.Session.Vigilance
import CastReceiver.Proofs.Tally

/-!
# Automatic mode

In automatic mode nobody is asked: a bid is accepted in the stretch of work that takes it in, or
right after the session of the peer that has been playing is over. So no watchdog waits for a
decision, and between operations no peer does. If nobody interferes, the whole course of a bid is
known.
-/
namespace CastReceiver

/-! ## Nobody waits for a decision -/

/-- In automatic mode the watchdog of a negotiation is not set. -/
structure Machine.Unasking (m : Machine) : Prop where
  sound : m.watchdogs.Sound
  slot : m.settings.autoAccept = true → m.watchdogs.slot .connectionAccept = none

/-- The watchdog of a negotiation is left alone in automatic mode. -/
def composure : Upkeep where
  sound m := m.Unasking
  ensues m m' := m.watchdogs.Ensues m'.watchdogs ∧ m'.settings = m.settings
  tidy _ := True
  refl hm := ⟨.refl hm.sound, rfl⟩
  trans h h' := ⟨h.1.trans h'.1, h'.2.trans h.2⟩

section Composure

variable {m m' : Machine}

theorem Machine.Unasking.step (h : m'.Unasking) (hensues : m.watchdogs.Ensues m'.watchdogs)
    (hsettings : m'.settings = m.settings) : composure.Step m m' :=
  ⟨h, ⟨hensues, hsettings⟩, fun _ => trivial⟩

theorem Watch.Handles.composed (h : m.watch.Handles m'.watch) (hm : m.Unasking) :
    composure.Step m m' := by
  rcases h with hspared | hsettled
  · refine Machine.Unasking.step ⟨hspared.watchdogs.sound, fun hauto => ?_⟩
      hspared.watchdogs.toEnsues hspared.settings
    have hsettings : m'.settings = m.settings := hspared.settings
    rw [hsettings] at hauto
    exact hspared.watchdogs.slot_eq.trans (hm.slot hauto)
  · exact Machine.Unasking.step ⟨hsettled.watchdogs.sound, fun _ => hsettled.slot⟩
      hsettled.watchdogs hsettled.settings

/-- Whoever leaves the watchdogs alone leaves them unset. -/
theorem Machine.Unasking.congr (hm : m.Unasking) (hwatchdogs : m'.watchdogs = m.watchdogs)
    (hsettings : m'.settings = m.settings) : composure.Step m m' := by
  refine Machine.Unasking.step ⟨?_, fun hauto => ?_⟩ ?_ hsettings
  · rw [hwatchdogs]
    exact hm.sound
  · rw [hsettings] at hauto
    rw [hwatchdogs]
    exact hm.slot hauto
  · rw [hwatchdogs]
    exact .refl hm.sound

theorem Watch.Leaves.composed (h : m.watch.Leaves m'.watch) (hm : m.Unasking) :
    composure.Step m m' := by
  obtain ⟨-, phase, hm'⟩ := h
  exact hm.congr (congrArg Watch.watchdogs hm') (congrArg Watch.settings hm')

theorem Run.Attends.composed {α : Type} {r : Run α} (h : r.Attends m) (hm : m.Unasking) :
    r.Keeps composure m := by
  cases h with
  | brief h => exact (h.mono fun _ h => h.composed hm).keeps
  | spares hr hf =>
    apply Run.keeps_bind (hr.mono fun _ h => Watch.Handles.composed (.inl h) hm)
    exact fun m₁ a hm₁ hensues => (hf m₁ a hm₁.sound hensues.1).mono fun _ h => h.composed hm₁
  | cancels hr hf =>
    apply Run.keeps_bind (hr.mono fun _ h =>
      Machine.Unasking.step ⟨h.1.sound, fun _ => h.2.1⟩ h.1 h.2.2)
    exact fun m₁ a hm₁ _ => (hf m₁ a).mono fun _ h => h.composed hm₁
  | ends hr hf =>
    apply Run.keeps_bind (hr.mono fun _ h => hm.congr h.1 h.2)
    exact fun m₁ a hm₁ _ => (hf m₁ a hm₁.sound).mono fun _ h =>
      Watch.Handles.composed (.inr h) hm₁

theorem composure_governs : composure.Governs where
  fresh _ _ := ⟨⟨Timer.Watchdogs.timely_empty.toSound, fun _ => rfl⟩, trivial⟩
  runs m o hm ho := by
    cases hauto : m.settings.autoAccept with
    | true => exact (o.run_attends hm.sound ho fun _ _ => hauto).composed hm
    | false =>
      rcases o.run_attends_or_opens hm.sound ho with hattends | hopens
      · exact hattends.composed hm
      · refine (hopens.mono fun m' h => ?_).keeps
        have hsettings : m'.settings = m.settings := h.settings
        refine Machine.Unasking.step ⟨h.watchdogs.sound, fun hauto' => ?_⟩ h.watchdogs hsettings
        rw [hsettings, hauto] at hauto'
        exact nomatch hauto'

end Composure

/-! ## The course of a bid -/

/-- The event by which a change of the phase is announced. -/
def Change.announced (c : Change) (time : Nat) : Event :=
  .state (.changed c.source c.target c.id time)

/-- What is said of a bid in automatic mode: it is taken in under a new name, the peer that has been
playing is told that its session is over, and the bid is accepted. -/
def Bid.course (b : Bid) (source : Phase) (x : SessionId) (playing : Option Peer) (time : Nat) :
    List Event :=
  (b.opening source x).map (·.announced time) ++
    playing.toList.flatMap (fun p => [.notification (.connectionError p StopReason.newConnection.code
      time), .command .flushCurrentSession]) ++
    [Change.announced ⟨b.phase, .connectionAccepted, some x⟩ time, .command b.acceptance]

namespace Machine

variable {m m' m'' : Machine} {es es' : List Event} {b : Bid}

/-- Only some events have entered the journal, all at the present time. -/
structure Says (m m' : Machine) (es : List Event) : Prop where
  journal : m'.journal = m.journal ++ es.map fun e => ⟨m.now, .event e⟩
  now : m'.now = m.now

theorem Says.trans (h : m.Says m' es) (h' : m'.Says m'' es') : m.Says m'' (es ++ es') where
  journal := by rw [h'.journal, h.journal, h.now, List.map_append, List.append_assoc]
  now := h'.now.trans h.now

theorem says_nil (hjournal : m'.journal = m.journal) (hnow : m'.now = m.now) : m.Says m' [] :=
  ⟨hjournal.trans (List.append_nil _).symm, hnow⟩

theorem says_emit (m : Machine) (e : Event) : m.Says (m.emit e) [e] := ⟨rfl, rfl⟩

theorem Says.disarm (h : m.Says m' es) (kind : Timer.WatchdogKind) :
    m.Says (m'.disarm kind) es where
  journal := h.journal
  now := by
    rw [← h.now]
    exact Timer.Watchdogs.cancel_now ..

/-- A phase is announced unless nothing has changed. -/
theorem says_enter {target : Phase} (hnew : m.phase ≠ target ∨ target.holdsPendingPeer = true)
    (pending : Option PendingPeer) : m.Says (m.enter target pending)
      [Change.announced ⟨m.phase, target, (m.enter target pending).session.id⟩ m.now] := by
  have hloud : ¬(m.session.phase = target && !target.holdsPendingPeer) = true := by
    rw [Bool.and_eq_true, decide_eq_true_eq, Bool.not_eq_true']
    rintro ⟨hphase, hholds⟩
    exact hnew.elim (fun h => h hphase) fun h => Bool.false_ne_true (hholds.symm.trans h)
  rw [enter_session]
  unfold enter
  dsimp only
  rw [if_neg hloud]
  exact ⟨rfl, rfl⟩

/-- A watchdog that is not set need not be cancelled. -/
theorem disarm_of_none {kind : Timer.WatchdogKind} (hslot : m.watchdogs.slot kind = none) :
    m.disarm kind = m := by
  rw [disarm, Timer.Watchdogs.cancel, hslot]

theorem session_id_enter (m : Machine) (target : Phase) (pending : Option PendingPeer) :
    (m.enter target pending).session.id = (m.account.enter target).id :=
  congrArg Account.id (m.account_enter target pending)

/-! ### A bid is taken in -/

theorem takeIn_watchdogs (m : Machine) (b : Bid) :
    (m.takeIn b).watchdogs = m.watchdogs ∧ (m.takeIn b).settings = m.settings := by
  have hasked : (m.askToTakeOver b.peer).watchdogs = m.watchdogs ∧
      (m.askToTakeOver b.peer).settings = m.settings := by
    rw [askToTakeOver]
    split <;> exact ⟨rfl, rfl⟩
  cases b <;> simpa [takeIn, Bid.ways] using hasked

theorem says_takeIn (hphase : m.phase ≠ .directLaunchRequested) (b : Bid) :
    m.Says (m.takeIn b) ((b.opening m.phase (.nth m.attempts)).map (·.announced m.now)) := by
  have hasked (p : Peer) : m.Says (m.askToTakeOver p) [] := by
    rw [askToTakeOver]
    split <;> exact says_nil rfl rfl
  have hopened (p : Peer) (target : Phase) (htarget : target.holdsPendingPeer = true)
      (pending : Option PendingPeer) : m.Says ((m.askToTakeOver p).enter target pending)
        [Change.announced ⟨m.phase, target, some (.nth m.attempts)⟩ m.now] := by
    have hsays := (hasked p).trans (says_enter (.inr htarget) pending)
    have hsource : (m.askToTakeOver p).phase = m.phase :=
      congrArg Account.phase (m.account_askToTakeOver p)
    rwa [session_id_enter, account_askToTakeOver, Account.enter_id_of_holds htarget hphase, hsource,
      (hasked p).now] at hsays
  cases b with
  | connect mac name => exact hopened ⟨mac, name⟩ .connecting rfl _
  | launch l =>
    have hrequested := hopened l.peer .directLaunchRequested rfl (some (.ofLaunch l))
    let m₁ := (m.askToTakeOver l.peer).enter .directLaunchRequested (some (.ofLaunch l))
    have hphase₁ : m₁.phase = .directLaunchRequested := enter_phase ..
    have haccount₁ : m₁.account = m.account.enter .directLaunchRequested := by
      rw [account_enter, account_askToTakeOver]
    have hconnecting : m₁.Says (m₁.enter .directLaunchConnecting (some (.ofLaunch l))) _ :=
      says_enter (.inr rfl) _
    have hsays := hrequested.trans hconnecting
    rwa [session_id_enter, Account.enter_id_of_directLaunch hphase₁, haccount₁,
      Account.enter_id_of_holds rfl hphase, hphase₁, hrequested.now] at hsays

/-! ### A bid is considered -/

/-- The session of the peer that has been playing is over. -/
theorem endPreempted_of_some {p : Peer} (hpreempting : m.session.preempting.isSome = true)
    (hactive : m.session.active = some p) : m.endPreempted =
      (((m.setPreempting none).setActive none).notifyError p .newConnection).command
        .flushCurrentSession := by
  rw [endPreempted, if_pos hpreempting]
  dsimp only
  rw [hactive]

theorem endPreempted_of_none (hpreempting : m.session.preempting = none) :
    m.endPreempted = .done m () := by
  rw [endPreempted, hpreempting]
  rfl

/-- The bid that is pending is accepted. -/
theorem applyDecision_bid (hslot : m.watchdogs.slot .connectionAccept = none)
    (hphase : m.phase = b.phase) (hpending : m.session.pending = some b.pending) :
    m.applyDecision .accept = (((m.adopt (some b.pending)).enter .connectionAccepted).command
      b.acceptance).returning .done := by
  unfold applyDecision
  dsimp only
  rw [disarm_of_none hslot, hphase, hpending]
  cases b <;> rfl

theorem adopt_eq_setActive (m : Machine) (pending : Option PendingPeer) :
    ∃ q, m.adopt pending = m.setActive q := by
  unfold adopt
  split
  · exact ⟨m.session.active, rfl⟩
  · split
    · exact ⟨_, rfl⟩
    · exact ⟨m.session.active, rfl⟩

/-- The peer that waits is accepted: its acceptance is passed on, and nothing else is said. -/
theorem says_acceptance (hphase : m.phase = b.phase)
    (hpending : m.session.pending = some b.pending) :
    m.Says (m.applyDecision .accept).quietly.1
      [Change.announced ⟨b.phase, .connectionAccepted, m.session.id⟩ m.now,
        .command b.acceptance] := by
  obtain ⟨m₁, hm₁⟩ : ∃ m₁, m₁ = m.disarm .connectionAccept := ⟨_, rfl⟩
  have hsession₁ : m₁.session = m.session := by rw [hm₁]; rfl
  have hphase₁ : m₁.phase = b.phase := (congrArg Session.phase hsession₁).trans hphase
  obtain ⟨q, hadopted⟩ := m₁.adopt_eq_setActive (some b.pending)
  have hrun : (m.applyDecision .accept).quietly.1 =
      ((m₁.setActive q).enter .connectionAccepted).emit (.command b.acceptance) := by
    unfold applyDecision
    dsimp only
    rw [← hm₁, hphase₁, hsession₁, hpending, hadopted]
    cases b <;> exact congrArg Prod.fst (Run.quietly_map ..)
  have hsilent : m.Says (m₁.setActive q) [] := by
    have hcancelled : m.Says m₁ [] := by
      rw [hm₁]
      exact (says_nil rfl rfl).disarm _
    exact hcancelled.trans (says_nil rfl rfl)
  have hnew : (m₁.setActive q).phase ≠ .connectionAccepted := by
    show m₁.phase ≠ _
    rw [hphase₁]
    rcases b.phase_eq_or with h | h <;> rw [h] <;> decide
  have hentered := hsilent.trans (says_enter (.inl hnew) none)
  rw [enter_session, hsilent.now, show (m₁.setActive q).phase = b.phase from hphase₁] at hentered
  rw [hrun, ← hsession₁]
  exact hentered.trans (says_emit _ _)

/-- A bid is accepted when nobody asks to take over. -/
theorem says_accepted (hslot : m.watchdogs.slot .connectionAccept = none)
    (hphase : m.phase = b.phase) (hpending : m.session.pending = some b.pending)
    (hpreempting : m.session.preempting = none) :
    let m' := (m.applyDecision .accept).quietly.1
    m'.phase = .connectionAccepted ∧ m'.session.active = some b.peer ∧
      m.Says m' [Change.announced ⟨b.phase, .connectionAccepted, m.session.id⟩ m.now,
        .command b.acceptance] := by
  intro m'
  have hadopted : m.adopt (some b.pending) = m.setActive (some b.peer) := by
    rw [adopt, hpreempting, b.peer_pending]
    rfl
  have hm' : m' = ((m.setActive (some b.peer)).enter .connectionAccepted).emit
      (.command b.acceptance) := by
    show (m.applyDecision .accept).quietly.1 = _
    rw [applyDecision_bid hslot hphase hpending, hadopted, Run.quietly_returning]
    rfl
  refine ⟨?_, ?_, says_acceptance hphase hpending⟩
  · rw [hm']
    exact enter_phase ..
  · rw [hm']
    show ((m.setActive (some b.peer)).enter .connectionAccepted).session.active = _
    rw [enter_session]
    rfl

/-- The course of a bid in automatic mode, if nobody interferes. -/
theorem says_course (hauto : m.settings.autoAccept = true) (henabled : m.gate.enabled = true)
    (hphase : m.phase ≠ .directLaunchRequested)
    (hslot : m.watchdogs.slot .connectionAccept = none)
    (hpreempting : m.session.preempting = none) {playing : Option Peer}
    (hplaying : if m.phase = .playerLaunched then
      m.session.active = playing ∧ playing.isSome = true else playing = none) (b : Bid) :
    let m' := m.undergo b.occurrence
    m'.phase = .connectionAccepted ∧ m'.session.active = some b.peer ∧
      m.Says m' (b.course m.phase (.nth m.attempts) playing m.now) := by
  intro m'
  let m₁ := m.takeIn b
  obtain ⟨hwatchdogs, hsettings⟩ := m.takeIn_watchdogs b
  have hparties := m.parties_takeIn b
  have hphase₁ : m₁.phase = b.phase := congrArg Parties.phase hparties
  have hpending₁ : m₁.session.pending = some b.pending := congrArg Parties.pending hparties
  have hactive₁ : m₁.session.active = m.session.active := congrArg Parties.active hparties
  have hpreempting₁ : m₁.session.preempting =
      if m.phase = .playerLaunched then some b.peer else m.session.preempting := by
    rw [← b.peer_pending]
    exact congrArg Parties.preempting hparties
  have hid₁ : m₁.session.id = some (.nth m.attempts) :=
    (congrArg Account.id (m.account_takeIn b)).trans (Account.pass_ways_id b hphase)
  have hslot₁ : m₁.watchdogs.slot .connectionAccept = none := by
    rw [hwatchdogs]
    exact hslot
  have hm' : m' = (m₁.endPreempted.quietly.1.applyDecision .accept).quietly.1 := by
    show ((b.occurrence.run m).quietly).1 = _
    rw [run_bid_of_enabled henabled hphase, Run.quietly_returning, considerRequest,
      if_pos (hsettings.symm ▸ hauto), Run.quietly_andThen, Run.quietly_returning]
  have hopened := says_takeIn hphase b
  by_cases hlaunched : m.phase = .playerLaunched
  · rw [if_pos hlaunched] at hplaying hpreempting₁
    obtain ⟨hactive, hplaying⟩ := hplaying
    obtain ⟨p, rfl⟩ := Option.isSome_iff_exists.1 hplaying
    have hended := endPreempted_of_some (m := m₁) (by rw [hpreempting₁]; rfl)
      (hactive₁.trans hactive)
    rw [hended, quietly_command] at hm'
    let m₂ := (((m₁.setPreempting none).setActive none).notifyError p .newConnection).emit
      (.command .flushCurrentSession)
    have hflushed : m₁.Says m₂ [.notification (.connectionError p StopReason.newConnection.code
        m₁.now), .command .flushCurrentSession] :=
      ((says_nil rfl rfl : m₁.Says ((m₁.setPreempting none).setActive none) []).trans
        (says_emit _ _)).trans (says_emit _ _)
    obtain ⟨hphase', hactive', haccepted⟩ :=
      says_accepted (m := m₂) (b := b) hslot₁ hphase₁ hpending₁ rfl
    rw [hm']
    refine ⟨hphase', hactive', ?_⟩
    have hsays := (hopened.trans hflushed).trans haccepted
    have hid₂ : m₂.session.id = some (.nth m.attempts) := hid₁
    rw [hid₂, hflushed.now, hopened.now] at hsays
    exact hsays
  · rw [if_neg hlaunched] at hplaying hpreempting₁
    subst hplaying
    rw [endPreempted_of_none (hpreempting₁.trans hpreempting), Run.quietly_done] at hm'
    obtain ⟨hphase', hactive', haccepted⟩ :=
      says_accepted (m := m₁) (b := b) hslot₁ hphase₁ hpending₁ (hpreempting₁.trans hpreempting)
    rw [hm']
    refine ⟨hphase', hactive', ?_⟩
    have hsays := hopened.trans haccepted
    rw [hid₁, hopened.now] at hsays
    rw [Bid.course, Option.toList_none, List.flatMap_nil, List.append_nil]
    exact hsays

/-- A bid is turned away while the service is not wanted. -/
theorem says_turnAway (hdisabled : m.gate.enabled = false) (b : Bid) :
    m.Says (m.undergo b.occurrence) [.command (.acceptClientConnection .reject)] := by
  rw [undergo, run_requester_of_disabled b.isSome_requester hdisabled]
  exact says_emit m _

end Machine

/-! ## Worlds -/

namespace World

variable {w : World}

/-- In automatic mode nobody has been asked. -/
theorem Reachable.questions_eq_nil (hw : w.Reachable)
    (hauto : w.machine.settings.autoAccept = true) : w.machine.questions = [] := by
  induction hw with
  | fresh => rfl
  | @turn w hw t ht ih =>
    have hstays : (counting.origin Occurrence.counted w t).Stays (w.turn t).2.machine.tally :=
      Discipline.reachable_allows counting_governs hw ht
    have horigin : (counting.origin Occurrence.counted w t).automatic =
        w.machine.settings.autoAccept ∧
        (counting.origin Occurrence.counted w t).questions = w.machine.questions := by
      cases t with
      | resume => exact ⟨rfl, rfl⟩
      | happen o =>
        show (o.counted w.machine).automatic = _ ∧ (o.counted w.machine).questions = _
        rw [Occurrence.counted]
        split <;> exact ⟨rfl, rfl⟩
    have hautomatic := hstays.automatic.symm.trans hauto
    have hquestions : (w.turn t).2.machine.questions = w.machine.questions :=
      (hstays.questions hautomatic).trans horigin.2
    rw [hquestions]
    exact ih (horigin.1.symm.trans hautomatic)

theorem Reachable.unasking (hw : w.Reachable) : w.machine.Unasking :=
  (Upkeep.reachable_upheld composure_governs hw).sound

/-- In automatic mode, whoever interferes: the watchdog of a negotiation is not set, listeners are
not asked, nobody asks to take over, and between operations nobody waits for a decision. If nobody
interferes with a bid, its peer becomes the active one, and a peer that has been playing is told
before, exactly once. -/
theorem automatic_never_asks {settings : SessionSettings} {nameSource : Option NameSource}
    {ts : List Turn} (hauto : settings.autoAccept = true)
    (hts : (fresh settings nameSource).AllPossible ts) :
    let w := (fresh settings nameSource).turns ts
    let m := w.machine
    m.watchdogs.isArmed .connectionAccept = false ∧
    (∀ e ∈ m.journal, e.question? = none) ∧
    m.session.preempting = none ∧
    (w.waiting = [] → m.phase ≠ .connecting ∧ m.phase ≠ .directLaunchConnecting) ∧
    ∀ b : Bid,
      let m' := m.undergo b.occurrence
      (m.gate.enabled = true → m'.phase = .connectionAccepted ∧ m'.session.active = some b.peer ∧
        (m.phase = .playerLaunched → ∃ p, m.session.active = some p ∧
          m.Says m' (b.course m.phase (.nth m.attempts) (some p) m.now)) ∧
        (m.phase ≠ .playerLaunched →
          m.Says m' (b.course m.phase (.nth m.attempts) none m.now))) ∧
      (m.gate.enabled = false → m.Says m' [.command (.acceptClientConnection .reject)]) := by
  intro w m
  have hw : w.Reachable := (Reachable.fresh settings nameSource).turns hts
  have hautomatic : m.settings.autoAccept = true :=
    ((Reachable.fresh settings nameSource).automatic_turns hts).trans hauto
  have hkept : m.parties.Kept := Discipline.reachable_good shifting_governs hw
  have hpreempting : m.session.preempting = none := hkept.preempting_eq_none hautomatic
  have hslot : m.watchdogs.slot .connectionAccept = none := hw.unasking.slot hautomatic
  refine ⟨?_, ?_, hpreempting, fun hover => ?_, fun b => ⟨fun henabled => ?_,
    fun hdisabled => Machine.says_turnAway hdisabled b⟩⟩
  · rw [Timer.Watchdogs.isArmed, hslot]
  · have hnone : m.journal.filterMap Entry.question? = [] := hw.questions_eq_nil hautomatic
    exact List.filterMap_eq_nil_iff.1 hnone
  · have hwatched : m.watch.Negotiates → (m.watchdogs.slot .connectionAccept).isSome = true :=
      (Upkeep.reachable_tidy vigilance_governs hw hover).2
    rw [hslot] at hwatched
    exact not_or.1 fun hnegotiates => Bool.false_ne_true (hwatched hnegotiates)
  · have hcourse {playing : Option Peer} (hplaying : if m.phase = .playerLaunched then
        m.session.active = playing ∧ playing.isSome = true else playing = none) :=
      Machine.says_course hautomatic henabled hkept.not_requested hslot hpreempting hplaying b
    by_cases hlaunched : m.phase = .playerLaunched
    · obtain ⟨p, hp⟩ := Option.isSome_iff_exists.1 (hw.seated.engaged (.inr hlaunched))
      obtain ⟨hphase, hactive, hsays⟩ := hcourse (by rw [if_pos hlaunched]; exact ⟨hp, rfl⟩)
      exact ⟨hphase, hactive, fun _ => ⟨p, hp, hsays⟩, fun h => absurd hlaunched h⟩
    · obtain ⟨hphase, hactive, hsays⟩ := hcourse (by rw [if_neg hlaunched])
      exact ⟨hphase, hactive, fun h => absurd h hlaunched, fun _ => hsays⟩

/-- A second peer takes over from one that plays. -/
theorem automatic_never_asks_of_preemption :
    ∃ m : Machine, m.phase = .playerLaunched ∧
      m.Says (m.undergo (Bid.connect "bb" "B").occurrence)
        [.state (.changed .playerLaunched .connecting (some (.nth 1)) 0),
          .notification (.connectionError ⟨"aa", "A"⟩ StopReason.newConnection.code 0),
          .command .flushCurrentSession,
          .state (.changed .connecting .connectionAccepted (some (.nth 1)) 0),
          .command (.acceptClientConnection .accept)] := by
  let ts : List Turn := [.happen (.call (.setEnabled true)), .resume,
    .happen (.call (.report (.connectionRequest "aa" "A"))), .resume,
    .happen (.call (.report (.launchRequest
      ⟨.v4 ⟨10, 0, 0, 2⟩, "aa", "A", .v4 ⟨10, 0, 0, 1⟩⟩ true))), .resume]
  let settings : SessionSettings := { autoAccept := true }
  have hts : (fresh settings none).AllPossible ts := by decide +kernel
  obtain ⟨-, -, -, -, hbids⟩ := @automatic_never_asks settings none ts rfl hts
  have henabled : ((fresh settings none).turns ts).machine.gate.enabled = true := by
    decide +kernel
  have hphase : ((fresh settings none).turns ts).machine.phase = .playerLaunched := by
    decide +kernel
  have hactive : ((fresh settings none).turns ts).machine.session.active = some ⟨"aa", "A"⟩ := by
    decide +kernel
  have hattempts : ((fresh settings none).turns ts).machine.attempts = 1 := by decide +kernel
  have hnow : ((fresh settings none).turns ts).machine.now = 0 := by decide +kernel
  generalize ((fresh settings none).turns ts).machine = m at *
  obtain ⟨-, -, hpreempted, -⟩ := (hbids (.connect "bb" "B")).1 henabled
  obtain ⟨p, hp, hsays⟩ := hpreempted hphase
  obtain rfl : ⟨"aa", "A"⟩ = p := Option.some.inj (hactive.symm.trans hp)
  rw [hphase, hattempts, hnow] at hsays
  exact ⟨m, hphase, hsays⟩

end World

end CastReceiver
