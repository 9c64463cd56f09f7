import CastReceiver.Proofs.Session.Acceptance

/-!
# Who sits where

There is a seat for the peer that is active and one for a peer that asks to take over. Which of them
are taken goes with the phase: nobody sits in a phase that forgets the peers, somebody is active once
a peer is accepted, and a peer asks to take over only from one that is active. This holds between
operations and whenever a command goes out, whatever is requested while commands are carried out.
-/
namespace CastReceiver

namespace Parties

/-- No peer is remembered in the phases that forget them. -/
def Forgotten (s : Parties) : Prop :=
  s.phase.forgetsPeers = true → s.active = none ∧ s.preempting = none

theorem forgotten_enter (s : Parties) (target : Phase) : (s.enter target).Forgotten := by
  intro hforgets
  exact ⟨if_pos hforgets, if_pos hforgets⟩

/-- The seats that are taken go with the phase. -/
structure Seated (s : Parties) : Prop where
  forgotten : s.Forgotten
  engaged : s.phase = .connectionAccepted ∨ s.phase = .playerLaunched → s.active.isSome = true
  launched : s.phase = .playerLaunched → s.preempting = none
  /-- Nobody asks to take over from nobody, or once the matter is settled. -/
  preempting : s.preempting.isSome = true → s.active.isSome = true ∧
    (s.phase = .connecting ∨ s.phase = .directLaunchConnecting ∨ s.phase = .connectionAccepted)

variable {s : Parties} {p : PendingPeer}

/-- With both seats empty, anybody may be missing but an accepted peer. -/
theorem seated_of_vacant (hactive : s.active = none) (hpreempting : s.preempting = none)
    (hphase : s.phase ≠ .connectionAccepted ∧ s.phase ≠ .playerLaunched) : s.Seated where
  forgotten _ := ⟨hactive, hpreempting⟩
  engaged h := (h.elim hphase.1 hphase.2).elim
  launched _ := hpreempting
  preempting h := by simp [hpreempting] at h

/-- A phase that forgets the peers leaves both seats empty. -/
theorem seated_enter {target : Phase} (htarget : target.forgetsPeers = true) :
    (s.enter target).Seated := by
  obtain ⟨hactive, hpreempting⟩ := s.forgotten_enter target htarget
  refine seated_of_vacant hactive hpreempting ⟨?_, ?_⟩ <;>
    · rintro rfl
      exact nomatch htarget

/-- Whoever is accepted, somebody is active then. -/
theorem isSome_accept_active (s : Parties) (p : PendingPeer) :
    (s.accept p).active.isSome = true := by
  by_cases h : s.preempting = none ∨ s.active = none
  · rw [accept_active h]
    rfl
  · rw [accept_active_eq_self h, Option.isSome_iff_ne_none]
    exact (not_or.1 h).2

theorem seated_accept (s : Parties) (p : PendingPeer) : (s.accept p).Seated where
  forgotten := nofun
  engaged _ := s.isSome_accept_active p
  launched := nofun
  preempting _ := ⟨s.isSome_accept_active p, .inr (.inr rfl)⟩

theorem seated_launch (s : Parties) (l : Launch) : (s.launch l).Seated where
  forgotten := nofun
  engaged _ := rfl
  launched _ := rfl
  preempting := nofun

/-- A peer that asks while another one plays finds that one active. -/
theorem Seated.ask (hs : s.Seated) {target : Phase}
    (htarget : target = .connecting ∨ target = .directLaunchConnecting) :
    (s.ask target p).Seated where
  forgotten hforgets := by
    change target.forgetsPeers = true at hforgets
    rcases htarget with rfl | rfl <;> exact nomatch hforgets
  engaged h := by
    change target = _ ∨ target = _ at h
    rcases htarget with rfl | rfl <;> exact absurd h (by decide)
  launched h := by
    change target = _ at h
    rcases htarget with rfl | rfl <;> exact absurd h (by decide)
  preempting h := by
    refine ⟨?_, htarget.imp_right .inl⟩
    change (if s.phase = .playerLaunched then some p.peer else s.preempting).isSome = true at h
    by_cases hphase : s.phase = .playerLaunched
    · exact hs.engaged (.inr hphase)
    · rw [if_neg hphase] at h
      exact (hs.preempting h).1

end Parties

section Shift

variable {s t : Parties} {c : Option Command}

theorem Shift.seated (h : Shift s c t) (hs : s.Seated) : t.Seated := by
  cases h with
  | stay => exact hs
  | rest _ htarget => exact Parties.seated_enter (Phase.forgetsPeers_of_isUnengaged htarget)
  | flush _ hphase =>
    refine Parties.seated_of_vacant rfl rfl ⟨?_, ?_⟩ <;>
      · intro h
        change s.phase = _ at h
        rw [h] at hphase
        exact nomatch hphase
  | accept | acceptDirect => exact Parties.seated_accept ..
  | reject | restart => exact Parties.seated_enter rfl
  | launch => exact Parties.seated_launch ..

end Shift

/-- A request makes its peer the pending one, in one of two phases. -/
theorem Occurrence.seated_opened {o : Occurrence} {m : Machine} (hm : m.parties.Seated) :
    (o.opened m).Seated := by
  unfold opened
  split
  · split
    · exact hm.ask (.inl rfl)
    · exact hm
  · split
    · exact hm.ask (.inr rfl)
    · exact hm
  · exact hm

namespace World

variable {w : World}

theorem seated_opened (hw : w.machine.parties.Seated) (t : Turn) : (w.opened t).Seated := by
  cases t with
  | happen o => exact o.seated_opened hw
  | resume => exact hw

/-- Between operations and whenever a command goes out, the seats that are taken go with the
phase. -/
theorem Reachable.seated (hw : w.Reachable) : w.machine.parties.Seated := by
  induction hw with
  | fresh => exact Parties.seated_of_vacant rfl rfl ⟨nofun, nofun⟩
  | @turn w hw t ht ih => exact (hw.shift ht).seated (seated_opened ih t)

theorem Reachable.forgotten (hw : w.Reachable) : w.machine.parties.Forgotten :=
  hw.seated.forgotten

/-- Between operations and whenever a command goes out: both seats are empty in the phases in which
nobody is engaged or a session is over, somebody is active from an acceptance on, and whoever asks
to take over does so from an active peer and until the launch at the latest. -/
theorem Reachable.seats_go_with_phase (hw : w.Reachable) :
    let phase := w.machine.phase
    let active := w.machine.session.active
    let preempting := w.machine.session.preempting
    (phase = .idle ∨ phase = .discoverable ∨ phase = .connectionRejected ∨
        phase = .restartingSession → active = none ∧ preempting = none) ∧
      (phase = .connectionAccepted ∨ phase = .playerLaunched → active.isSome = true) ∧
      (phase = .playerLaunched → preempting = none) ∧
      (preempting.isSome = true → active.isSome = true ∧
        (phase = .connecting ∨ phase = .directLaunchConnecting ∨ phase = .connectionAccepted)) := by
  obtain ⟨hforgotten, hengaged, hlaunched, hpreempting⟩ := hw.seated
  refine ⟨fun hphase => hforgotten ?_, hengaged, hlaunched, hpreempting⟩
  show w.machine.phase.forgetsPeers = true
  rcases hphase with h | h | h | h <;> rw [h] <;> rfl

/-- The machine is shut down while a second peer asks to take over from the first one. Both are
still there when discovery is told to stop. -/
theorem seats_during_shutdown :
    ∃ w : World, w.Reachable ∧ w.waiting.length = 1 ∧ w.machine.phase = .connecting ∧
      w.machine.session.preempting = some ⟨"bb", "B"⟩ ∧
      w.machine.session.active.isSome = true := by
  let ts : List Turn := [.happen (.call (.setEnabled true)), .resume,
    .happen (.call (.report (.connectionRequest "aa" "A"))),
    .happen (.call (.decide "Accept")), .resume,
    .happen (.call (.report (.launchRequest
      ⟨.v4 ⟨10, 0, 0, 2⟩, "aa", "A", .v4 ⟨10, 0, 0, 1⟩⟩ true))),
    .happen (.call (.report (.connectionRequest "bb" "B"))), .happen (.call .shutdown)]
  let w := (fresh {} none).turns ts
  have hw : w.Reachable := (Reachable.fresh {} none).turns (by decide +kernel)
  have hphase : w.machine.phase = .connecting := by decide +kernel
  have hpreempting : w.machine.session.preempting = some ⟨"bb", "B"⟩ := by decide +kernel
  have hwaiting : w.waiting.length = 1 := by decide +kernel
  obtain ⟨-, -, -, hactive⟩ := hw.seats_go_with_phase
  refine ⟨w, hw, hwaiting, hphase, hpreempting, (hactive ?_).1⟩
  rw [hpreempting]
  rfl

end World

end CastReceiver
