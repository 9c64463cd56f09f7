import CastReceiver.Proofs.Session.Acceptance
import CastReceiver.Proofs.Stops

/-!
# Succession

While one peer plays another one may ask, be accepted and launch in its place. What the player has
to say about the old peer may come at any time after that. Its stop is ignored while the new peer
waits for a decision, and after an acceptance by hand until the new peer launches. From then on the
machine remembers nobody but the new peer, and the stop of the old one ends the session.
-/
namespace CastReceiver

/-- A peer takes part: it is pending, or was accepted last and has not launched, or plays. -/
def History.Engages (h : History) (s : Parties) (mac : String) : Prop :=
  (∃ p ∈ s.pending, sameMac p.mac mac = true) ∨
    (s.phase = .connectionAccepted ∧ ∃ a ∈ h.accepted.getLast?, sameMac a mac = true) ∨
    (s.phase = .playerLaunched ∧ ∃ p ∈ s.active, sameMac p.mac mac = true)

instance (h : History) (s : Parties) (mac : String) : Decidable (h.Engages s mac) :=
  inferInstanceAs (Decidable (_ ∨ _ ∨ _))

namespace Parties

variable {s : Parties} {mac : String} {target : Phase} {p : PendingPeer}

/-- A peer that is not accepted without asking has the place of the one that asks to take over,
until it launches. -/
def SucceededBy (s : Parties) (mac : String) : Prop :=
  s.automatic = false → s.phase ≠ .playerLaunched →
    s.active.isSome = true ∧ ∃ p ∈ s.preempting, sameMac p.mac mac = true

/-- Who plays is known, and nobody asks to take over. -/
def Playing (s : Parties) : Prop :=
  s.phase = .playerLaunched → s.active.isSome = true ∧ s.preempting = none

theorem SucceededBy.ask (hs : s.SucceededBy mac) (hplaying : s.Playing)
    (hp : sameMac p.mac mac = true) : (s.ask target p).SucceededBy mac := by
  intro ha _
  by_cases hphase : s.phase = .playerLaunched
  · have hpreempting : (s.ask target p).preempting = some p.peer := if_pos hphase
    exact ⟨(hplaying hphase).1, p.peer, hpreempting, hp⟩
  · have hpreempting : (s.ask target p).preempting = s.preempting := if_neg hphase
    rw [hpreempting]
    exact hs ha hphase

theorem SucceededBy.accept (hs : s.SucceededBy mac) (hphase : s.phase ≠ .playerLaunched) :
    (s.accept p).SucceededBy mac := by
  intro ha _
  have hmanual : s.automatic = false := ha
  obtain ⟨hactive, q, hq, hmac⟩ := hs hmanual hphase
  have hkept : (s.accept p).active = s.active := by
    apply accept_active_eq_self
    rintro (hnone | hnone)
    · exact nomatch hnone.symm.trans hq
    · simp [hnone] at hactive
  have hpreempting : (s.accept p).preempting = s.preempting := by simp [Parties.accept, hmanual]
  rw [hkept, hpreempting]
  exact ⟨hactive, q, hq, hmac⟩

end Parties

namespace History

variable {s t : Parties} {c : Option Command} {h : History} {mac : String} {p : PendingPeer}

/-- Nobody takes part where no session has begun or one is over. -/
theorem not_engages_of_enter {target : Phase} (haccepted : target ≠ .connectionAccepted)
    (hlaunched : target ≠ .playerLaunched) : ¬h.Engages (s.enter target) mac := by
  rintro (⟨p, hp, -⟩ | ⟨hphase, -⟩ | ⟨hphase, -⟩)
  · exact nomatch hp
  · exact haccepted hphase
  · exact hlaunched hphase

theorem engages_of_holdsPendingPeer (hphase : s.phase.holdsPendingPeer = true)
    (hengaged : h.Engages s mac) : ∃ p ∈ s.pending, sameMac p.mac mac = true := by
  rcases hengaged with hpending | ⟨haccepted, -⟩ | ⟨hlaunched, -⟩
  · exact hpending
  · simp [haccepted, Phase.holdsPendingPeer] at hphase
  · simp [hlaunched, Phase.holdsPendingPeer] at hphase

/-- The peer that takes part after an acceptance is the one that was accepted. -/
theorem sameMac_of_engages_accept (hp : s.pending = some p) (hc : c.any Command.accepts = true)
    (hengaged : (h.after s c (s.accept p)).Engages (s.accept p) mac) :
    sameMac p.mac mac = true := by
  have haccepted : (h.after s c (s.accept p)).accepted = h.accepted ++ [p.mac] := by
    simp [after, Parties.accept, Phase.forgetsPeers, hc, hp]
  rcases hengaged with ⟨q, hq, -⟩ | ⟨-, a, ha, hmac⟩ | ⟨hphase, -⟩
  · cases hq
  · rw [haccepted, List.getLast?_append] at ha
    obtain rfl : p.mac = a := by simpa using ha
    exact hmac
  · cases hphase

end History

namespace Shift

variable {s t : Parties} {c : Option Command} {h : History} {mac : String}

theorem playing (hshift : Shift s c t) (hs : s.Playing) : t.Playing := by
  cases hshift with
  | stay _ _ => exact hs
  | rest _ htarget =>
    intro hphase
    change _ = _ at hphase
    subst hphase
    simp [Phase.isUnengaged] at htarget
  | flush _ hphase _ _ =>
    intro hplayed
    change s.phase = _ at hplayed
    simp [hplayed, Phase.holdsPendingPeer] at hphase
  | accept _ _ | acceptDirect _ _ _ | reject _ | restart _ _ => rintro ⟨⟩
  | launch _ => exact fun _ => ⟨rfl, rfl⟩

/-- Whoever takes part after a stretch that began with a request has made the request. -/
theorem exists_pending_of_engages (hshift : Shift s c t)
    (hphase : s.phase.holdsPendingPeer = true) (hengaged : (h.after s c t).Engages t mac) :
    ∃ p ∈ s.pending, sameMac p.mac mac = true := by
  cases hshift with
  | stay _ _ => exact History.engages_of_holdsPendingPeer hphase hengaged
  | flush _ _ _ _ =>
    have hpending := History.engages_of_holdsPendingPeer (by exact hphase) hengaged
    exact hpending
  | rest _ htarget =>
    refine absurd hengaged (History.not_engages_of_enter ?_ ?_) <;> rintro rfl <;> cases htarget
  | accept _ hp | acceptDirect _ hp _ =>
    exact ⟨_, hp, History.sameMac_of_engages_accept hp rfl hengaged⟩
  | reject _ | restart _ _ => exact absurd hengaged (History.not_engages_of_enter nofun nofun)
  | launch hl => simp [hl.1, Phase.holdsPendingPeer] at hphase

/-- A peer that takes part keeps its place. -/
theorem succeededBy (hshift : Shift s c t) (hs : s.SucceededBy mac)
    (hengaged : (h.after s c t).Engages t mac) : t.SucceededBy mac := by
  cases hshift with
  | stay _ _ => exact hs
  | rest _ htarget =>
    refine absurd hengaged (History.not_engages_of_enter ?_ ?_) <;> rintro rfl <;> cases htarget
  | flush ha _ _ _ => exact fun hmanual => nomatch ha.symm.trans hmanual
  | accept hphase _ => exact hs.accept (by simp [hphase])
  | acceptDirect hphase _ _ => exact hs.accept (by simp [hphase])
  | reject _ | restart _ _ => exact absurd hengaged (History.not_engages_of_enter nofun nofun)
  | launch _ => exact fun _ hphase => absurd rfl hphase

end Shift

namespace Occurrence

variable {o : Occurrence} {m : Machine} {mac : String}

/-- A request that is taken in makes its peer the pending one. -/
theorem opened_of_requester (henabled : m.gate.enabled = true) (ho : o.requester? = some mac) :
    ∃ target p, target.holdsPendingPeer = true ∧ p.mac = mac ∧
      o.opened m = m.parties.ask target p := by
  unfold requester? at ho
  split at ho
  case h_1 =>
    obtain rfl := Option.some.inj ho
    exact ⟨_, _, rfl, rfl, if_pos henabled⟩
  case h_2 =>
    obtain rfl := Option.some.inj ho
    exact ⟨_, _, rfl, rfl, if_pos henabled⟩
  case h_3 => exact nomatch ho

end Occurrence

namespace World

variable {w : World} {t : Turn} {h : History} {old new : String}

/-- The stream of a peer is rendered. -/
def Plays (w : World) (mac : String) : Prop :=
  w.machine.phase = .playerLaunched ∧ ∃ p ∈ w.machine.session.active, sameMac p.mac mac = true

/-- A peer asks to connect, or launches without having asked, and is not turned away. -/
def Asks (w : World) (t : Turn) (mac : String) : Prop :=
  w.machine.gate.enabled = true ∧
    ∃ o asked, t = .happen o ∧ o.requester? = some asked ∧ sameMac asked mac = true

/-- While an old peer played, a new one asked, and has taken part ever since. -/
inductive Replaced (old new : String) : World → History → Prop where
  | ask {w : World} {t : Turn} (hw : w.Reachable) (ht : w.Possible t) (hplays : w.Plays old)
      (hasks : w.Asks t new) (hother : sameMac old new = false)
      (hengaged : (w.history {} [t]).Engages (w.turn t).2.machine.parties new) :
      Replaced old new (w.turn t).2 (w.history {} [t])
  | turn {w : World} {h : History} {t : Turn} (hw : Replaced old new w h) (ht : w.Possible t)
      (hengaged : (w.history h [t]).Engages (w.turn t).2.machine.parties new) :
      Replaced old new (w.turn t).2 (w.history h [t])

/-- A peer takes part after each of several turns. -/
def AllEngaged (new : String) : World → History → List Turn → Prop
  | _, _, [] => True
  | w, h, t :: ts => w.Possible t ∧ (w.history h [t]).Engages (w.turn t).2.machine.parties new ∧
      AllEngaged new (w.turn t).2 (w.history h [t]) ts

instance decidableAllEngaged (new : String) :
    (w : World) → (h : History) → DecidablePred (AllEngaged new w h)
  | _, _, [] => isTrue trivial
  | w, h, t :: ts =>
    have := decidableAllEngaged new (w.turn t).2 (w.history h [t]) ts
    inferInstanceAs (Decidable (w.Possible t ∧
      (w.history h [t]).Engages (w.turn t).2.machine.parties new ∧ _))

theorem Reachable.playing (hw : w.Reachable) : w.machine.parties.Playing := by
  induction hw with
  | fresh settings nameSource => exact nofun
  | @turn w hw t ht ih =>
    apply (hw.shift ht).playing
    rcases w.opened_eq_or t with hopened | ⟨target, p, htarget, hopened⟩
    · rwa [hopened]
    · rw [hopened]
      intro hphase
      change target = _ at hphase
      simp [hphase, Phase.holdsPendingPeer] at htarget

namespace Replaced

theorem turns (hr : Replaced old new w h) {ts : List Turn} (hts : AllEngaged new w h ts) :
    Replaced old new (w.turns ts) (w.history h ts) := by
  induction ts generalizing w h with
  | nil => exact hr
  | cons t ts ih => exact ih (hr.turn hts.1 hts.2.1) hts.2.2

theorem reachable (hr : Replaced old new w h) : w.Reachable := by
  induction hr with
  | ask hw ht _ _ _ _ => exact hw.turn _ ht
  | turn _ ht _ ih => exact ih.turn _ ht

theorem engages (hr : Replaced old new w h) : h.Engages w.machine.parties new := by
  cases hr with
  | ask _ _ _ _ _ hengaged => exact hengaged
  | turn _ _ hengaged => exact hengaged

theorem other (hr : Replaced old new w h) : sameMac old new = false := by
  induction hr with
  | ask _ _ _ _ hother _ => exact hother
  | turn _ _ _ ih => exact ih

/-- The place of the peer that asks to take over is the new peer's until it launches. -/
theorem succeededBy (hr : Replaced old new w h) : w.machine.parties.SucceededBy new := by
  induction hr with
  | @ask w t hw ht hplays hasks _ hengaged =>
    obtain ⟨henabled, o, asked, rfl, ho, hmac⟩ := hasks
    obtain ⟨target, p, -, rfl, hopened⟩ := Occurrence.opened_of_requester henabled ho
    have hvacuous : w.machine.parties.SucceededBy new := fun _ hphase => absurd hplays.1 hphase
    have hasked : (w.opened (.happen o)).SucceededBy new := by
      show (o.opened w.machine).SucceededBy new
      rw [hopened]
      exact hvacuous.ask hw.playing hmac
    exact (hw.shift ht).succeededBy hasked hengaged
  | @turn w h t hr ht hengaged ih =>
    have hshift := hr.reachable.shift ht
    refine hshift.succeededBy ?_ hengaged
    rcases w.opened_eq_or t with hopened | ⟨target, p, htarget, hopened⟩
    · rwa [hopened]
    · have hasked := hshift.exists_pending_of_engages (by rwa [hopened]) hengaged
      rw [hopened] at hasked ⊢
      obtain ⟨q, hq, hmac⟩ := hasked
      obtain rfl : p = q := Option.some.inj hq
      exact ih.ask hr.reachable.playing hmac

end Replaced

end World

namespace Machine

variable {m : Machine} {mac state : String} {code : Nat}

/-- A stop of the player that concerns the session ends it, before or after a command. -/
theorem restartSession_stop_phase (mac : String) :
    (m.restartSession mac).stop.phase = .idle ∨
      (m.restartSession mac).stop.phase = .restartingSession := by
  rw [restartSession]
  split
  · exact .inl (enter_phase _ _ _)
  · exact .inr (enter_phase _ _ _)

theorem endSession_stop_phase {name : String} {phase : Phase} {reason : StopReason}
    (hengaged : phase.isUnengaged = false) (hrestarting : phase ≠ .restartingSession) :
    (m.endSession mac name phase reason).stop.phase = .idle ∨
      (m.endSession mac name phase reason).stop.phase = .restartingSession := by
  rw [endSession]
  simp only [hengaged, hrestarting, decide_false, Bool.or_self, Bool.false_eq_true, if_false]
  generalize (if reason.isFailure then m.notifyError ⟨mac, name⟩ reason else m) = m₁
  split
  · rw [Run.stop_returning]
    exact restartSession_stop_phase mac
  · exact .inl (enter_phase _ _ _)

section Stopped

variable (hstate : PlayerState.parse? state = some .stopped)
  (hreason : StopReason.ofCode code ≠ .newConnection)

include hstate hreason

/-- The stop of a peer that another one has replaced changes nothing. -/
theorem updatePlayer_of_isSuperseded (h : m.session.isSuperseded mac = true) :
    m.updatePlayer mac state code = .done m (.ok (.stale .supersededStop)) := by
  simp [updatePlayer, hstate, playerStopped, hreason, h, Run.map]

theorem updatePlayer_stop_phase (h : m.session.isSuperseded mac = false)
    (hengaged : m.phase.isUnengaged = false) (hrestarting : m.phase ≠ .restartingSession) :
    (m.updatePlayer mac state code).stop.phase = .idle ∨
      (m.updatePlayer mac state code).stop.phase = .restartingSession := by
  simp only [updatePlayer, hstate, playerStopped, hreason, h, Run.stop_map, Bool.false_eq_true,
    if_false]
  exact endSession_stop_phase hengaged hrestarting

end Stopped

/-- Whom a stop is about is told from the peers that are pending or ask to take over. -/
theorem isSuperseded_eq (m : Machine) (mac : String) : m.session.isSuperseded mac =
    (m.parties.pending.any (fun p => !sameMac p.mac mac) ||
      m.parties.preempting.any fun p => !sameMac p.mac mac) := rfl

end Machine

namespace World

variable {w : World} {h : History} {old new mac state : String} {code : Nat}

/-- The machine still tells the old peer from the new one, that is pending or accepted by hand. -/
def TellsApart (w : World) : Prop :=
  w.machine.session.pending.isSome = true ∨
    w.machine.settings.autoAccept = false ∧ w.machine.phase = .connectionAccepted

namespace Replaced

theorem kept (hr : Replaced old new w h) : w.machine.parties.Kept :=
  Discipline.reachable_good shifting_governs hr.reachable

theorem not_sameMac (hr : Replaced old new w h) (hmac : sameMac old mac = true) {q : String}
    (hq : sameMac q new = true) : sameMac q mac = false := by
  rw [← Bool.not_eq_true]
  intro hsame
  have hold : sameMac old new = true :=
    sameMac_trans (sameMac_trans hmac (sameMac_symm hsame)) hq
  exact nomatch hr.other.symm.trans hold

theorem pending_eq_none (hr : Replaced old new w h)
    (hphase : w.machine.phase = .connectionAccepted ∨ w.machine.phase = .playerLaunched) :
    w.machine.session.pending = none := by
  rw [← Option.not_isSome_iff_eq_none]
  intro hsome
  have hholds : w.machine.phase = .connecting ∨ w.machine.phase = .directLaunchConnecting :=
    hr.kept.isSome_iff.1 hsome
  rcases hphase with hphase | hphase <;> simp [hphase] at hholds

/-- The stop of the old peer counts as that of a session that was replaced exactly while the machine
tells the peers apart. -/
theorem isSuperseded_iff (hr : Replaced old new w h) (hmac : sameMac old mac = true) :
    w.machine.session.isSuperseded mac = true ↔ w.TellsApart := by
  rw [Machine.isSuperseded_eq]
  rcases hr.engages with ⟨p, hp, hnew⟩ | ⟨hphase, -⟩ | ⟨hphase, -⟩
  · have hpending : w.machine.parties.pending = some p := hp
    have hother := hr.not_sameMac hmac hnew
    refine iff_of_true ?_ (.inl (Option.isSome_iff_exists.2 ⟨p, hp⟩))
    simp [hpending, hother]
  · have hpending : w.machine.parties.pending = none := hr.pending_eq_none (.inl hphase)
    cases hauto : w.machine.settings.autoAccept with
    | false =>
      obtain ⟨-, q, hq, hnew⟩ := hr.succeededBy hauto (by simp [hphase])
      have hpreempting : w.machine.parties.preempting = some q := hq
      have hother := hr.not_sameMac hmac hnew
      refine iff_of_true ?_ (.inr ⟨hauto, hphase⟩)
      simp [hpreempting, hother]
    | true =>
      have hpreempting : w.machine.parties.preempting = none := hr.kept.preempting_eq_none hauto
      refine iff_of_false (by simp [hpending, hpreempting]) ?_
      rintro (hsome | ⟨hmanual, -⟩)
      · exact nomatch (congrArg Option.isSome hpending).symm.trans hsome
      · exact nomatch hauto.symm.trans hmanual
  · have hpending : w.machine.parties.pending = none := hr.pending_eq_none (.inr hphase)
    obtain ⟨-, hpreempting⟩ := hr.reachable.playing hphase
    refine iff_of_false (by simp [hpending, hpreempting]) ?_
    rintro (hsome | ⟨-, haccepted⟩)
    · exact nomatch (congrArg Option.isSome hpending).symm.trans hsome
    · exact nomatch hphase.symm.trans haccepted

/-- A peer that takes part keeps the session engaged. -/
theorem engaged (hr : Replaced old new w h) :
    w.machine.phase.isUnengaged = false ∧ w.machine.phase ≠ .restartingSession := by
  have hphase : w.machine.phase = .connecting ∨ w.machine.phase = .directLaunchConnecting ∨
      w.machine.phase = .connectionAccepted ∨ w.machine.phase = .playerLaunched := by
    rcases hr.engages with ⟨p, hp, -⟩ | ⟨hphase, -⟩ | ⟨hphase, -⟩
    · have hholds := hr.kept.isSome_iff.1 (Option.isSome_iff_exists.2 ⟨p, hp⟩)
      exact hholds.elim .inl fun hdirect => .inr (.inl hdirect)
    · exact .inr (.inr (.inl hphase))
    · exact .inr (.inr (.inr hphase))
  rcases hphase with hphase | hphase | hphase | hphase <;> simp [hphase, Phase.isUnengaged]

/-- The late stop of a peer that another one has replaced changes nothing while the new peer is
pending, or accepted by hand and yet to launch. At any other time it ends the new peer's session. -/
theorem ignores_stop_iff (hr : Replaced old new w h) (hmac : sameMac old mac = true)
    (hstate : PlayerState.parse? state = some .stopped)
    (hreason : StopReason.ofCode code ≠ .newConnection) :
    let t : Turn := .happen (.call (.player mac state code))
    (w.TellsApart → w.turn t = (none, w)) ∧
      (¬w.TellsApart → (w.turn t).2.machine.phase = .idle ∨
        (w.turn t).2.machine.phase = .restartingSession) := by
  intro t
  have hturn : w.turn t =
      ((w.machine.updatePlayer mac state code).map Reply.ofOutcome).pause w.waiting := rfl
  rw [← hr.isSuperseded_iff hmac, Bool.not_eq_true, hturn]
  constructor
  · intro hsuperseded
    rw [Machine.updatePlayer_of_isSuperseded hstate hreason hsuperseded]
    rfl
  · intro hcurrent
    obtain ⟨hengaged, hrestarting⟩ := hr.engaged
    rw [Run.pause_machine, Run.stop_map]
    exact Machine.updatePlayer_stop_phase hstate hreason hcurrent hengaged hrestarting

end Replaced

/-- The first of two peers plays. -/
def playing : World := (fresh {} none).turns (overlapping.take 6)

/-- The second peer asks. -/
def asking : Turn := .happen (.call (.report (.connectionRequest "bb" "B")))

/-- While the first of two peers plays, the second one asks. -/
theorem replaced_of_asking :
    Replaced "aa" "bb" (playing.turn asking).2 (playing.history {} [asking]) := by
  have hw : playing.Reachable := (Reachable.fresh {} none).turns (by decide +kernel)
  have hplays : playing.Plays "aa" :=
    ⟨by decide +kernel, ⟨"aa", "A"⟩, by decide +kernel, sameMac_refl _⟩
  have hasks : playing.Asks asking "bb" := ⟨by decide +kernel, _, "bb", rfl, rfl, sameMac_refl _⟩
  have hengaged : (playing.history {} [asking]).Engages
      (playing.turn asking).2.machine.parties "bb" := by decide +kernel
  exact .ask hw trivial hplays hasks (by decide +kernel) hengaged

/-- The second peer is accepted, and the first one stops. -/
theorem ignores_stop_of_accepted :
    ∃ (w : World) (h : History), Replaced "aa" "bb" w h ∧
      w.machine.phase = .connectionAccepted ∧
      w.turn (.happen (.call (.player "aa" "Stopped" 1))) = (none, w) := by
  let ts : List Turn := [.happen (.call (.decide "Accept")), .resume]
  let w := (playing.turn asking).2.turns ts
  have hts : AllEngaged "bb" (playing.turn asking).2 (playing.history {} [asking]) ts := by
    decide +kernel
  have hr := replaced_of_asking.turns hts
  have hphase : w.machine.phase = .connectionAccepted := by decide +kernel
  have hmanual : w.machine.settings.autoAccept = false := by decide +kernel
  have htold : w.TellsApart := .inr ⟨hmanual, hphase⟩
  have hstate : PlayerState.parse? "Stopped" = some .stopped := by decide +kernel
  have hreason : StopReason.ofCode 1 ≠ .newConnection := by decide +kernel
  exact ⟨w, _, hr, hphase, (hr.ignores_stop_iff (sameMac_refl "aa") hstate hreason).1 htold⟩

/-- The second peer launches, and the stop of the first one ends its session. -/
theorem stop_of_launched_not_ignored :
    ¬∀ (w : World) (h : History) (old new mac state : String) (code : Nat),
      Replaced old new w h → sameMac old mac = true →
      PlayerState.parse? state = some .stopped → StopReason.ofCode code ≠ .newConnection →
      (w.turn (.happen (.call (.player mac state code)))).2.machine.phase = w.machine.phase := by
  intro hall
  let launch : Launch := ⟨.v4 ⟨10, 0, 0, 3⟩, "bb", "B", .v4 ⟨10, 0, 0, 1⟩⟩
  let ts : List Turn := [.happen (.call (.decide "Accept")), .resume,
    .happen (.call (.report (.launchRequest launch true)))]
  let w := (playing.turn asking).2.turns ts
  have hts : AllEngaged "bb" (playing.turn asking).2 (playing.history {} [asking]) ts := by
    decide +kernel
  have hr := replaced_of_asking.turns hts
  have hkept := hall w _ "aa" "bb" "aa" "Stopped" 1 hr (sameMac_refl _) (by decide +kernel)
    (by decide +kernel)
  have hlaunched : w.machine.phase = .playerLaunched := by decide +kernel
  have hended : (w.turn (.happen (.call (.player "aa" "Stopped" 1)))).2.machine.phase =
      .restartingSession := by decide +kernel
  exact nomatch hended.symm.trans (hkept.trans hlaunched)

end World

end CastReceiver
