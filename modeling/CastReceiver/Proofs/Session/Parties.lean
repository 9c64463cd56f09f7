import CastReceiver.Proofs.Discipline

/-!
# The parties of a session

Who takes part in a session and how far it has come. All that one stretch of work can do to it is
one of seven kinds of `Shift`, whichever operation the stretch belongs to.
-/
namespace CastReceiver

structure Parties where
  /-- Connections and launches are accepted without asking. -/
  automatic : Bool
  phase : Phase
  pending : Option PendingPeer
  active : Option Peer
  preempting : Option Peer
  deriving DecidableEq

/-- A command that passes an acceptance on. -/
def Command.accepts : Command → Bool
  | .acceptClientConnection .accept | .switchLaunchRequestContext _ => true
  | _ => false

namespace Parties

/-- A phase is entered; some phases forget the peers. -/
def enter (s : Parties) (target : Phase) (pending : Option PendingPeer := none) : Parties where
  automatic := s.automatic
  phase := target
  pending
  active := if target.forgetsPeers then none else s.active
  preempting := if target.forgetsPeers then none else s.preempting

/-- A peer asks; while another one plays, it asks to take over. -/
def ask (s : Parties) (target : Phase) (p : PendingPeer) : Parties :=
  { s with
    phase := target
    pending := some p
    preempting := if s.phase = .playerLaunched then some p.peer else s.preempting }

/-- A peer becomes the active one, unless another one asks to take over from one that is active. -/
def adopt (s : Parties) (p : PendingPeer) : Parties :=
  if s.preempting.isNone || s.active.isNone then { s with active := some p.peer } else s

/-- The pending peer is accepted. In automatic mode nobody asks to take over any longer. -/
def accept (s : Parties) (p : PendingPeer) : Parties where
  automatic := s.automatic
  phase := .connectionAccepted
  pending := none
  active := (s.adopt p).active
  preempting := if s.automatic then none else s.preempting

/-- An accepted peer launches. -/
def launch (s : Parties) (l : Launch) : Parties where
  automatic := s.automatic
  phase := .playerLaunched
  pending := none
  active := some l.peer
  preempting := none

/-- A peer may launch that is active or asks to take over. -/
def Admits (s : Parties) (l : Launch) : Prop :=
  s.phase = .connectionAccepted ∧ ∃ p ∈ s.active.toList ++ s.preempting.toList,
    sameMac p.mac l.sourceMac = true

/-- A pending peer is kept while a request is negotiated and only then, with its addresses exactly
if it came with a launch. -/
structure PendingKept (s : Parties) : Prop where
  isSome_iff : s.pending.isSome = true ↔
    s.phase = .connecting ∨ s.phase = .directLaunchConnecting
  not_requested : s.phase ≠ .directLaunchRequested
  not_aborting : s.phase ≠ .abortingConnection
  addresses : s.phase = .directLaunchConnecting →
    ∀ p ∈ s.pending, p.sourceIp.isSome = true ∧ p.sinkIp.isSome = true
  no_addresses : s.phase = .connecting → ∀ p ∈ s.pending, p.sourceIp = none ∧ p.sinkIp = none

/-- What is good to find between stretches of work. -/
structure Kept (s : Parties) : Prop extends s.PendingKept where
  /-- In automatic mode a peer that asks to take over does not have to wait. -/
  preempting_eq_none : s.automatic = true → s.preempting = none

end Parties

/-- How a stretch that stops at a command, or at the end of its operation, may change the
parties. -/
inductive Shift (s : Parties) : Option Command → Parties → Prop where
  | stay {c : Option Command} (hc : ∀ x ∈ c, x.accepts = false)
      (hs : s.automatic = true → s.preempting = none) : Shift s c s
  /-- There is no session any more. -/
  | rest {c : Option Command} {target : Phase} (hc : ∀ x ∈ c, x.accepts = false)
      (htarget : target.isUnengaged = true) : Shift s c (s.enter target)
  /-- In automatic mode, a session ends for a peer that asks to take over. -/
  | flush (ha : s.automatic = true) (hphase : s.phase.holdsPendingPeer = true)
      (hp : s.preempting.isSome = true) (hactive : s.active.isSome = true) :
      Shift s (some .flushCurrentSession) { s with active := none, preempting := none }
  | accept {p : PendingPeer} (hphase : s.phase = .connecting) (hp : s.pending = some p) :
      Shift s (some (.acceptClientConnection .accept)) (s.accept p)
  /-- A direct launch is accepted, and its context passed on. -/
  | acceptDirect {p : PendingPeer} {l : Launch} (hphase : s.phase = .directLaunchConnecting)
      (hp : s.pending = some p) (hl : p.launch? = some l) :
      Shift s (some (.switchLaunchRequestContext l)) (s.accept p)
  | reject (hphase : s.phase = .connecting) :
      Shift s (some (.acceptClientConnection .reject)) (s.enter .connectionRejected)
  /-- A session ends, and discovery restarts for a peer. -/
  | restart {mac : String} (hphase : s.phase.isUnengaged = false)
      (hrestarting : s.phase ≠ .restartingSession) :
      Shift s (some (.restartSessionDiscovery mac)) (s.enter .restartingSession)
  | launch {l : Launch} (hl : s.Admits l) :
      Shift s (if s.automatic then some (.beginPlayback l) else none) (s.launch l)

namespace Machine

def parties (m : Machine) : Parties where
  automatic := m.settings.autoAccept
  phase := m.session.phase
  pending := m.session.pending
  active := m.session.active
  preempting := m.session.preempting

variable (m : Machine)

/-! What else there is in a machine does not concern its parties. -/

@[simp] theorem parties_emit (e : Event) : (m.emit e).parties = m.parties := rfl

@[simp] theorem parties_notifyLaunch (l : Launch) : (m.notifyLaunch l).parties = m.parties := rfl

@[simp] theorem parties_announceEnabled (enabled : Bool) :
    (m.announceEnabled enabled).parties = m.parties := rfl

@[simp] theorem parties_silencePlayer : m.silencePlayer.parties = m.parties := rfl

@[simp] theorem parties_withGate (gate : Gate) : { m with gate }.parties = m.parties := rfl

@[simp] theorem parties_disarm (kind : Timer.WatchdogKind) :
    (m.disarm kind).parties = m.parties := rfl

@[simp] theorem parties_disarmAll : m.disarmAll.parties = m.parties := rfl

/-! The session is changed by a few functions only. -/

@[simp] theorem parties_enter (target : Phase) (pending : Option PendingPeer) :
    (m.enter target pending).parties = m.parties.enter target pending := by
  simp [parties, Parties.enter, entered]

theorem parties_reset : m.reset.parties = m.parties.enter .idle := rfl

@[simp] theorem parties_adopt (p : PendingPeer) :
    (m.adopt (some p)).parties = m.parties.adopt p := by
  cases h : m.session.preempting.isNone || m.session.active.isNone <;>
    simp [adopt, Parties.adopt, parties, setActive, h]

/-! A reported launch leads to the player if the peer may launch, and to nothing otherwise. -/

variable {m} {l : Launch}

/-- The machine after a peer that may launch has launched, before anybody is told. -/
def launched (m : Machine) (l : Launch) : Machine :=
  ((m.setActive (some l.peer)).setPreempting none).enter .playerLaunched

theorem parties_launched : (m.launched l).parties = m.parties.launch l := by
  rw [launched, parties_enter]
  rfl

theorem admits_iff : m.parties.Admits l ↔ m.phase = .connectionAccepted ∧
    m.session.connected.any (fun p => sameMac p.mac l.sourceMac) = true := by
  rw [List.any_eq_true]
  rfl

theorem acceptedLaunch_of_admits (h : m.parties.Admits l) :
    m.acceptedLaunch l = if m.settings.autoAccept then (m.launched l).command (.beginPlayback l)
      else .done ((m.launched l).notifyLaunch l) () := by
  obtain ⟨hphase, hknown⟩ := admits_iff.1 h
  have hauto : (m.launched l).settings.autoAccept = m.settings.autoAccept :=
    congrArg Parties.automatic parties_launched
  rw [acceptedLaunch]
  rw [if_pos (by simp [hphase, hknown]), ← hauto]
  rfl

theorem acceptedLaunch_of_not_admits (h : ¬m.parties.Admits l) :
    m.acceptedLaunch l = .done m () := by
  rw [admits_iff, ← decide_eq_true_iff (p := m.phase = _)] at h
  rw [acceptedLaunch]
  rw [if_neg (by simpa using h)]

end Machine

/-! ## A shift keeps the pending peer in its phases -/

namespace Parties

theorem pendingKept_ask_connecting (s : Parties) (mac name : String) :
    (s.ask .connecting { mac, name }).PendingKept where
  isSome_iff := by simp [ask]
  not_requested := by simp [ask]
  not_aborting := by simp [ask]
  addresses := by simp [ask]
  no_addresses := by simp [ask]

theorem pendingKept_ask_direct (s : Parties) (l : Launch) :
    (s.ask .directLaunchConnecting (.ofLaunch l)).PendingKept where
  isSome_iff := by simp [ask]
  not_requested := by simp [ask]
  not_aborting := by simp [ask]
  addresses := by simp [ask, PendingPeer.ofLaunch]
  no_addresses := by simp [ask]

/-- No peer is pending in a phase in which no request is negotiated. -/
theorem pendingKept_of_settled {s : Parties} (hpending : s.pending = none)
    (hphase : s.phase.holdsPendingPeer = false) (haborting : s.phase ≠ .abortingConnection) :
    s.PendingKept where
  isSome_iff := by
    rw [hpending]
    cases h : s.phase <;> simp_all [Phase.holdsPendingPeer]
  not_requested := by
    intro h
    simp [h, Phase.holdsPendingPeer] at hphase
  not_aborting := haborting
  addresses := by simp [hpending]
  no_addresses := by simp [hpending]

theorem enter_adopt {s : Parties} (hs : s.Kept) (p : PendingPeer) :
    (s.adopt p).enter .connectionAccepted = s.accept p := by
  have hpreempting := hs.preempting_eq_none
  rw [accept, enter, adopt]
  split <;> cases ha : s.automatic <;> simp_all [Phase.forgetsPeers]

theorem PendingKept.exists_pending {s : Parties} (hs : s.PendingKept)
    (hphase : s.phase = .connecting ∨ s.phase = .directLaunchConnecting) :
    ∃ p, s.pending = some p :=
  Option.isSome_iff_exists.1 (hs.isSome_iff.2 hphase)

/-- A direct launch that is negotiated has a context. -/
theorem PendingKept.exists_launch {s : Parties} (hs : s.PendingKept)
    (hphase : s.phase = .directLaunchConnecting) :
    ∃ p l, s.pending = some p ∧ p.launch? = some l := by
  obtain ⟨p, hp⟩ := hs.exists_pending (.inr hphase)
  obtain ⟨hsource, hsink⟩ := hs.addresses hphase p hp
  obtain ⟨source, hsource⟩ := Option.isSome_iff_exists.1 hsource
  obtain ⟨sink, hsink⟩ := Option.isSome_iff_exists.1 hsink
  exact ⟨p, ⟨source, p.mac, p.name, sink⟩, hp, by simp [PendingPeer.launch?, hsource, hsink]⟩

end Parties

theorem Shift.kept {s t : Parties} {c : Option Command} (h : Shift s c t) (hs : s.PendingKept) :
    t.Kept := by
  cases h with
  | stay _ hauto => exact ⟨hs, hauto⟩
  | @rest _ target _ htarget =>
    refine ⟨Parties.pendingKept_of_settled rfl ?_ ?_, ?_⟩ <;>
      cases target <;> simp_all [Parties.enter, Phase.isUnengaged, Phase.holdsPendingPeer,
        Phase.forgetsPeers]
  | flush _ _ _ _ => exact ⟨⟨hs.1, hs.2, hs.3, hs.4, hs.5⟩, fun _ => rfl⟩
  | accept _ _ | acceptDirect _ _ _ =>
    exact ⟨Parties.pendingKept_of_settled rfl rfl (by rintro ⟨⟩), fun ha => if_pos ha⟩
  | reject _ | restart _ _ =>
    exact ⟨Parties.pendingKept_of_settled rfl rfl (by rintro ⟨⟩), fun _ => rfl⟩
  | launch _ => exact ⟨Parties.pendingKept_of_settled rfl rfl (by rintro ⟨⟩), fun _ => rfl⟩

/-- Only the pending peer is accepted, and its acceptance is passed on. -/
theorem Shift.accepted {s t : Parties} {c : Option Command} (h : Shift s c t)
    (ht : t.phase = .connectionAccepted) :
    t = s ∨ ∃ p, s.pending = some p ∧ t = s.accept p ∧
      (c = some (.acceptClientConnection .accept) ∨
        ∃ l, p.launch? = some l ∧ c = some (.switchLaunchRequestContext l)) := by
  cases h with
  | stay _ _ => exact .inl rfl
  | accept _ hp => exact .inr ⟨_, hp, rfl, .inl rfl⟩
  | acceptDirect _ hp hl => exact .inr ⟨_, hp, rfl, .inr ⟨_, hl, rfl⟩⟩
  | rest _ htarget =>
    change _ = _ at ht
    subst ht
    simp [Phase.isUnengaged] at htarget
  | flush _ hphase _ _ =>
    change s.phase = _ at ht
    simp [ht, Phase.holdsPendingPeer] at hphase
  | reject _ | restart _ _ | launch _ => cases ht

theorem Shift.restarting {s t : Parties} {c : Option Command} (h : Shift s c t)
    (ht : t.phase = .restartingSession) :
    t = s ∨ ∃ mac, c = some (.restartSessionDiscovery mac) := by
  cases h with
  | stay _ _ => exact .inl rfl
  | restart _ _ => exact .inr ⟨_, rfl⟩
  | rest _ htarget =>
    change _ = _ at ht
    subst ht
    simp [Phase.isUnengaged] at htarget
  | flush _ hphase _ _ =>
    change s.phase = _ at ht
    simp [ht, Phase.holdsPendingPeer] at hphase
  | accept _ _ | acceptDirect _ _ _ | reject _ | launch _ => cases ht

/-- The parties when an occurrence has been taken in: a request makes its peer the pending one. -/
def Occurrence.opened : Occurrence → Machine → Parties
  | .call (.report (.connectionRequest mac name)), m =>
    if m.gate.enabled then m.parties.ask .connecting { mac, name } else m.parties
  | .call (.report (.launchRequest l false)), m =>
    if m.gate.enabled then m.parties.ask .directLaunchConnecting (.ofLaunch l) else m.parties
  | _, m => m.parties

theorem Occurrence.pendingKept_opened {o : Occurrence} {m : Machine}
    (hm : m.parties.PendingKept) : (o.opened m).PendingKept := by
  unfold opened
  split
  · split
    · exact Parties.pendingKept_ask_connecting _ _ _
    · exact hm
  · split
    · exact Parties.pendingKept_ask_direct _ _
    · exact hm
  · exact hm

/-- Parties shift, and nothing else happens to them. -/
def shifting : Discipline Parties where
  view := Machine.parties
  good := Parties.Kept
  allows := Shift

end CastReceiver
