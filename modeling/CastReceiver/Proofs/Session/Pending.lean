import CastReceiver.Proofs.Session.Operations

/-!
# The pending peer

A pending peer is kept exactly while a request is negotiated, with the addresses of its stream
exactly if it came with a launch. So whoever decides about a peer, or decides too late, has one to
decide about.
-/
namespace CastReceiver

namespace World

variable {w : World} {t : Turn}

/-- The parties once the occurrence of a turn has been taken in. -/
def opened (w : World) (t : Turn) : Parties :=
  shifting.origin Occurrence.opened w t

theorem opened_eq_or (w : World) (t : Turn) :
    w.opened t = w.machine.parties ∨ ∃ target p, target.holdsPendingPeer = true ∧
      w.opened t = w.machine.parties.ask target p := by
  cases t with
  | resume => exact .inl rfl
  | happen o =>
    unfold opened Discipline.origin Occurrence.opened
    dsimp only
    split
    · split
      · exact .inr ⟨_, _, rfl, rfl⟩
      · exact .inl rfl
    · split
      · exact .inr ⟨_, _, rfl, rfl⟩
      · exact .inl rfl
    · exact .inl rfl

/-- Nobody is accepted, and no session ends, without a peer that it is about: a turn into one of
these phases finds the peer where it looks for it, and passes its decision on. -/
structure Decided (w : World) (t : Turn) : Prop where
  accepted : (w.turn t).2.machine.parties.phase = .connectionAccepted →
    (w.turn t).2.machine.parties = w.machine.parties ∨
      ∃ p, (w.opened t).pending = some p ∧
        ((w.turn t).1 = some (.acceptClientConnection .accept) ∨
          ∃ l, p.launch? = some l ∧ (w.turn t).1 = some (.switchLaunchRequestContext l))
  restarting : (w.turn t).2.machine.parties.phase = .restartingSession →
    (w.turn t).2.machine.parties = w.machine.parties ∨
      ∃ mac, (w.turn t).1 = some (.restartSessionDiscovery mac)

theorem Reachable.shift (h : w.Reachable) (ht : w.Possible t) :
    Shift (w.opened t) (w.turn t).1 (w.turn t).2.machine.parties :=
  Discipline.reachable_allows shifting_governs h ht

theorem Reachable.decided (h : w.Reachable) (ht : w.Possible t) : w.Decided t := by
  have hshift := h.shift ht
  have hstays : (w.turn t).2.machine.parties = w.opened t →
      (w.opened t).phase.holdsPendingPeer = false →
      (w.turn t).2.machine.parties = w.machine.parties := by
    intro hstays hphase
    rcases w.opened_eq_or t with hopened | ⟨target, p, htarget, hopened⟩
    · rw [hstays, hopened]
    · rw [hopened] at hphase
      exact nomatch htarget.symm.trans hphase
  constructor
  · intro hphase
    rcases hshift.accepted hphase with hs | ⟨p, hp, -, hc⟩
    · refine .inl (hstays hs ?_)
      rw [← hs]
      simp [hphase, Phase.holdsPendingPeer]
    · exact .inr ⟨p, hp, hc⟩
  · intro hphase
    rcases hshift.restarting hphase with hs | hc
    · refine .inl (hstays hs ?_)
      rw [← hs]
      simp [hphase, Phase.holdsPendingPeer]
    · exact .inr hc

/-- Between operations and whenever a command goes out, a pending peer is kept exactly while a
request is negotiated, and every decision finds the peer that it is about. -/
theorem Reachable.pending_while_negotiating (h : w.Reachable) :
    w.machine.parties.PendingKept ∧ ∀ t, w.Possible t → w.Decided t :=
  ⟨(Discipline.reachable_good shifting_governs h).toPendingKept, fun _ ht => h.decided ht⟩

theorem pending_while_negotiating_during_a_command :
    ∃ w : World, w.waiting.length = 1 ∧ w.machine.parties.phase = .directLaunchConnecting ∧
      w.machine.parties.PendingKept ∧ ∀ t, w.Possible t → w.Decided t := by
  let enabling := (World.fresh {} none).turn (.happen (.call (.setEnabled true)))
  let launch : Launch := ⟨.v4 ⟨10, 0, 0, 2⟩, "aa", "A", .v4 ⟨10, 0, 0, 1⟩⟩
  let launching := enabling.2.turn (.happen (.call (.report (.launchRequest launch false))))
  have henabling : enabling.2.Reachable := .turn (.fresh {} none) _ trivial
  have hlaunching : launching.2.Reachable := .turn henabling _ trivial
  have hwaiting : launching.2.waiting.length = 1 := by decide +kernel
  have hphase : launching.2.machine.parties.phase = .directLaunchConnecting := by
    decide +kernel
  exact ⟨launching.2, hwaiting, hphase, hlaunching.pending_while_negotiating⟩

end World

end CastReceiver
