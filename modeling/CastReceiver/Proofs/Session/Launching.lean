import CastReceiver.Proofs.Session.Operations

/-!
# Launching

A peer launches after it has been accepted. It is heard if it is the active peer or the one that
asks to take over. An acceptance does not always make it one of the two: of several peers that ask
while another one plays, the first keeps its place even if a later one is accepted.
-/
namespace CastReceiver

namespace Parties

variable {s : Parties} {p : PendingPeer} {l : Launch}

/-- There is a place for the pending peer, or its address has one already. -/
def Hears (s : Parties) (mac : String) : Prop :=
  s.preempting = none ∨ s.active = none ∨
    ∃ p ∈ s.active.toList ++ s.preempting.toList, sameMac p.mac mac = true

theorem hears_preempting {q : Peer} {mac : String} (hq : s.preempting = some q)
    (hmac : sameMac q.mac mac = true) : s.Hears mac :=
  .inr (.inr ⟨q, by simp [hq], hmac⟩)

theorem accept_active (h : s.preempting = none ∨ s.active = none) :
    (s.accept p).active = some p.peer := by
  simp [accept, adopt, h]

theorem accept_active_eq_self (h : ¬(s.preempting = none ∨ s.active = none)) :
    (s.accept p).active = s.active := by
  simp [accept, adopt, h]

/-- When nobody is accepted but by hand, an accepted peer may launch exactly if it is heard. -/
theorem admits_accept_iff (ha : s.automatic = false) (hl : sameMac p.mac l.sourceMac = true) :
    (s.accept p).Admits l ↔ s.Hears l.sourceMac := by
  have hpreempting : (s.accept p).preempting = s.preempting := by simp [accept, ha]
  have hphase : (s.accept p).phase = .connectionAccepted := rfl
  by_cases h : s.preempting = none ∨ s.active = none
  · have hactive : (s.accept p).active = some p.peer := accept_active h
    constructor
    · intro _
      exact or_assoc.1 (.inl h)
    · intro _
      exact ⟨hphase, p.peer, by simp [hactive], hl⟩
  · have hactive : (s.accept p).active = s.active := accept_active_eq_self h
    rw [not_or] at h
    simp [Admits, Hears, hphase, hactive, hpreempting, h]

end Parties

namespace Machine

variable {m : Machine} {l : Launch}

/-- A launch is honoured: the peer is the active one, and listeners are told once. -/
structure Honours (m : Machine) (l : Launch) (m' : Machine) : Prop where
  phase : m'.phase = .playerLaunched
  active : m'.session.active = some l.peer
  journal : m'.journal = m.journal ++
    [⟨m.now, .event (.state (.changed .connectionAccepted .playerLaunched m.session.id m.now))⟩,
      ⟨m.now, .event (.notification (.launchRequest l m.now))⟩]

theorem honours_notifyLaunch (hphase : m.phase = .connectionAccepted) :
    m.Honours l ((m.launched l).notifyLaunch l) where
  phase := congrArg Parties.phase parties_launched
  active := congrArg Parties.active parties_launched
  journal := by
    simp only [phase] at hphase
    simp [launched, enter, entered, notifyLaunch, emit, record, setActive, setPreempting, hphase,
      now, Phase.isUnengaged, Phase.holdsPendingPeer]

/-- A pending peer can be accepted, and becomes the active one if there is a place for it. -/
theorem applyDecision_accept_quietly (hs : m.parties.Kept) {p : PendingPeer}
    (hp : m.session.pending = some p) :
    (m.applyDecision .accept).quietly.1.parties = m.parties.accept p ∧
      (m.applyDecision .accept).quietly.2 = .done := by
  have hphase := hs.isSome_iff.1 (Option.isSome_iff_exists.2 ⟨p, hp⟩)
  have hparties : (((m.disarm .connectionAccept).adopt (some p)).enter
      .connectionAccepted).parties = m.parties.accept p := by
    rw [parties_enter, parties_adopt, parties_disarm, Parties.enter_adopt hs]
  have hp' : (m.disarm .connectionAccept).session.pending = some p := hp
  unfold applyDecision
  dsimp only
  rw [hp']
  rcases hphase with hphase | hphase
  · have hphase' : (m.disarm .connectionAccept).phase = .connecting := hphase
    rw [hphase']
    exact ⟨by simpa using hparties, rfl⟩
  · have hphase' : (m.disarm .connectionAccept).phase = .directLaunchConnecting := hphase
    obtain ⟨p', l, hpending, hl⟩ := hs.exists_launch hphase
    obtain rfl : p = p' := Option.some.inj (hp.symm.trans hpending)
    rw [hphase']
    simp only [Option.bind_some, hl]
    exact ⟨by simpa using hparties, rfl⟩

theorem run_accept :
    ((Occurrence.call (.decide "Accept")).run m).quietly =
      ((m.applyDecision .accept).quietly.1, .ack (m.applyDecision .accept).quietly.2) := by
  have hparse : Decision.parse? "Accept" = some .accept := by decide
  simp [Occurrence.run, perform, decide, hparse, Reply.ofOutcome]

theorem undergo_launch (m : Machine) (l : Launch) :
    m.undergo (.call (.report (.launchRequest l true))) = (m.acceptedLaunch l).quietly.1 := by
  simp [undergo, Occurrence.run, perform, receive, launchRequested]

end Machine

namespace World

/-- While the first of three peers plays, the other two ask to connect, one after the other. -/
def overlapping : List Turn :=
  let call (c : Call) : Turn := .happen (.call c)
  let asks (mac name : String) := call (.report (.connectionRequest mac name))
  [call (.setEnabled true), .resume, asks "aa" "A", call (.decide "Accept"), .resume,
    call (.report (.launchRequest ⟨.v4 ⟨10, 0, 0, 2⟩, "aa", "A", .v4 ⟨10, 0, 0, 1⟩⟩ true)),
    asks "bb" "B", asks "cc" "C"]

variable {w : World} {p : PendingPeer} {l : Launch}

/-- The next thing after a peer is accepted by hand is that it launches: this works exactly if there
was a place for the peer, and is ignored otherwise. -/
theorem Reachable.honours_accepted_iff (h : w.Reachable)
    (hmanual : w.machine.settings.autoAccept = false) (hp : w.machine.session.pending = some p)
    (hl : sameMac p.mac l.sourceMac = true) :
    let accepted := w.machine.undergo (.call (.decide "Accept"))
    let launched := accepted.undergo (.call (.report (.launchRequest l true)))
    ((Occurrence.call (.decide "Accept")).run w.machine).quietly.2 = .ack .done ∧
      (accepted.Honours l launched ↔ w.machine.parties.Hears l.sourceMac) ∧
      (¬w.machine.parties.Hears l.sourceMac → launched = accepted) := by
  have hgood : w.machine.parties.Kept := Discipline.reachable_good shifting_governs h
  obtain ⟨hparties, hreply⟩ := Machine.applyDecision_accept_quietly hgood hp
  intro accepted launched
  have haccepted : accepted.parties = w.machine.parties.accept p := by
    rw [← hparties]
    exact congrArg (fun x => x.1.parties) Machine.run_accept
  have hauto : accepted.settings.autoAccept = false :=
    (congrArg Parties.automatic haccepted).trans hmanual
  have hphase : accepted.phase = .connectionAccepted := congrArg Parties.phase haccepted
  have hadmits : accepted.parties.Admits l ↔ w.machine.parties.Hears l.sourceMac := by
    rw [haccepted]
    exact Parties.admits_accept_iff hmanual hl
  have hlaunched : launched = (accepted.acceptedLaunch l).quietly.1 := accepted.undergo_launch l
  have hignored : ¬w.machine.parties.Hears l.sourceMac → launched = accepted := by
    intro hnot
    rw [← hadmits] at hnot
    rw [hlaunched, Machine.acceptedLaunch_of_not_admits hnot]
    rfl
  refine ⟨?_, ⟨?_, ?_⟩, hignored⟩
  · rw [Machine.run_accept, hreply]
  · intro honoured
    by_cases hheard : w.machine.parties.Hears l.sourceMac
    · exact hheard
    · rw [hignored hheard] at honoured
      exact nomatch hphase.symm.trans honoured.phase
  · intro hheard
    rw [hlaunched, Machine.acceptedLaunch_of_admits (hadmits.2 hheard), hauto]
    exact Machine.honours_notifyLaunch hphase

/-- A peer that asks while another one plays is heard if nobody else asks. -/
theorem honours_accepted_of_two :
    ∃ (w : World) (l : Launch), w.Reachable ∧ w.machine.session.active = some ⟨"aa", "A"⟩ ∧
      (w.machine.undergo (.call (.decide "Accept"))).Honours l
        ((w.machine.undergo (.call (.decide "Accept"))).undergo
          (.call (.report (.launchRequest l true)))) := by
  let w := (fresh {} none).turns (overlapping.take 7)
  let l : Launch := ⟨.v4 ⟨10, 0, 0, 3⟩, "bb", "B", .v4 ⟨10, 0, 0, 1⟩⟩
  have hw : w.Reachable := (Reachable.fresh {} none).turns (by decide +kernel)
  have hmanual : w.machine.settings.autoAccept = false := by decide +kernel
  have hpending : w.machine.session.pending = some { mac := "bb", name := "B" } := by
    decide +kernel
  have hactive : w.machine.session.active = some ⟨"aa", "A"⟩ := by decide +kernel
  have hpreempting : w.machine.parties.preempting = some ⟨"bb", "B"⟩ := by decide +kernel
  have hheard : w.machine.parties.Hears l.sourceMac :=
    Parties.hears_preempting hpreempting (sameMac_refl _)
  have honoured := hw.honours_accepted_iff hmanual hpending (sameMac_refl l.sourceMac)
  exact ⟨w, l, hw, hactive, honoured.2.1.2 hheard⟩

/-- Of two peers that ask while a third one plays, the second is accepted but not heard. -/
theorem accepted_not_honoured :
    ¬∀ (w : World) (p : PendingPeer) (l : Launch), w.Reachable →
      w.machine.settings.autoAccept = false → w.machine.session.pending = some p →
      sameMac p.mac l.sourceMac = true →
      ((Occurrence.call (.decide "Accept")).run w.machine).quietly.2 = .ack .done →
      (w.machine.undergo (.call (.decide "Accept"))).Honours l
        ((w.machine.undergo (.call (.decide "Accept"))).undergo
          (.call (.report (.launchRequest l true)))) := by
  intro h
  let w := (fresh {} none).turns overlapping
  let l : Launch := ⟨.v4 ⟨10, 0, 0, 4⟩, "cc", "C", .v4 ⟨10, 0, 0, 1⟩⟩
  have hw : w.Reachable := (Reachable.fresh {} none).turns (by decide +kernel)
  have honoured := h w { mac := "cc", name := "C" } l hw (by decide +kernel) (by decide +kernel)
    (sameMac_refl _) (by decide +kernel)
  have hignored : ((w.machine.undergo (.call (.decide "Accept"))).undergo
      (.call (.report (.launchRequest l true)))).phase = .connectionAccepted := by decide +kernel
  exact nomatch hignored.symm.trans honoured.phase

end World

end CastReceiver
