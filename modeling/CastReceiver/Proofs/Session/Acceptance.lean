import CastReceiver.Proofs.Session.Launching
import CastReceiver.Proofs.Session.Pending

/-!
# Acceptance and launching

Which peers may launch is told from two places, that of the active peer and that of a peer that
asks to take over. What has happened tells which peers were accepted. The two agree as long as
whoever asks to take over is accepted before another peer is.
-/
namespace CastReceiver

/-- What has happened to a machine, as far as acceptance is concerned. -/
structure History where
  /-- The peers that were accepted since a phase was entered that forgets the peers. -/
  accepted : List String := []
  /-- Every peer that has launched so far had been accepted. -/
  rightful : Bool := true

namespace History

variable {h : History} {mac : String}

def knows (h : History) (mac : String) : Bool :=
  h.accepted.any fun a => sameMac a mac

/-- A stretch of work leads from the parties `s` to the parties `t`, and stops at a command or at
the end of its operation. -/
def after (h : History) (s : Parties) (c : Option Command) (t : Parties) : History where
  accepted :=
    if t.phase.forgetsPeers then []
    else if c.any Command.accepts then h.accepted ++ (s.pending.map PendingPeer.mac).toList
    else h.accepted
  rightful :=
    h.rightful && (s.phase = .playerLaunched || t.phase ≠ .playerLaunched ||
      t.active.all fun p => h.knows p.mac)

theorem knows_of_sameMac {mac' : String} (hmac : sameMac mac mac' = true)
    (hknows : h.knows mac = true) : h.knows mac' = true := by
  obtain ⟨a, ha, hsame⟩ := List.any_eq_true.1 hknows
  exact List.any_eq_true.2 ⟨a, ha, sameMac_trans hsame hmac⟩

/-- Nobody is active who was not accepted, unless a peer has launched that was not. -/
structure Backs (h : History) (s : Parties) : Prop where
  forgotten : s.phase.forgetsPeers = true → s.active = none
  nobody_waits : s.automatic = true → s.phase.holdsPendingPeer = false → s.preempting = none
  active : h.rightful = true → ∀ p ∈ s.active, h.knows p.mac = true
  rightful : s.automatic = true → h.rightful = true

theorem Backs.knows_of_admits {s : Parties} {l : Launch} (hs : h.Backs s)
    (hrightful : h.rightful = true)
    (hpreempting : s.phase = .connectionAccepted → ∀ p ∈ s.preempting, h.knows p.mac = true)
    (hl : s.Admits l) : h.knows l.sourceMac = true := by
  obtain ⟨hphase, p, hp, hmac⟩ := hl
  apply knows_of_sameMac hmac
  rcases List.mem_append.1 hp with hp | hp
  · exact hs.active hrightful p (Option.mem_toList.1 hp)
  · exact hpreempting hphase p (Option.mem_toList.1 hp)

/-! ## A shift keeps a history and its parties together -/

section Shift

variable {s t : Parties} {c : Option Command}

theorem after_accepted (ht : t.phase.forgetsPeers = false) (hc : c.any Command.accepts = false) :
    (h.after s c t).accepted = h.accepted := by
  simp [after, ht, hc]

theorem after_rightful (ht : t.phase = .playerLaunched → s.phase = .playerLaunched) :
    (h.after s c t).rightful = h.rightful := by
  by_cases hphase : t.phase = .playerLaunched
  · simp [after, ht hphase]
  · simp [after, hphase]

theorem knows_accepted {p : PendingPeer} (ht : t.phase.forgetsPeers = false)
    (hc : c.any Command.accepts = true) (hp : s.pending = some p) :
    (h.after s c t).knows mac = (h.knows mac || sameMac p.mac mac) := by
  simp [knows, after, ht, hc, hp, List.any_append]

theorem Backs.after_forgotten (hs : h.Backs s) (ht : t.phase.forgetsPeers = true)
    (hauto : t.automatic = s.automatic) (hactive : t.active = none)
    (hpreempting : t.automatic = true → t.preempting = none) : (h.after s c t).Backs t where
  forgotten _ := hactive
  nobody_waits ha _ := hpreempting ha
  active _ p hp := by simp [hactive] at hp
  rightful ha := by
    rw [after_rightful]
    · exact hs.rightful (hauto ▸ ha)
    · intro hphase
      simp [hphase, Phase.forgetsPeers] at ht

/-- Nobody is accepted or launches. -/
theorem Backs.after_unchanged (hs : h.Backs s) (ht : t.phase.forgetsPeers = false)
    (hphase : t.phase = s.phase) (hc : c.any Command.accepts = false)
    (hauto : t.automatic = s.automatic) (hactive : ∀ p ∈ t.active, p ∈ s.active)
    (hpreempting : t.automatic = true → t.preempting = none) : (h.after s c t).Backs t := by
  have hrightful : (h.after s c t).rightful = h.rightful :=
    after_rightful fun hlaunched => hphase.symm.trans hlaunched
  refine ⟨fun hforgets => ?_, fun ha _ => hpreempting ha, ?_, ?_⟩
  · simp [ht] at hforgets
  · intro hr p hp
    rw [knows, after_accepted ht hc]
    exact hs.active (hrightful ▸ hr) p (hactive p hp)
  · intro ha
    rw [hrightful]
    exact hs.rightful (hauto ▸ ha)

theorem Backs.after_accept {p : PendingPeer} (hs : h.Backs s) (hp : s.pending = some p)
    (hc : c.any Command.accepts = true) : (h.after s c (s.accept p)).Backs (s.accept p) := by
  have hrightful : (h.after s c (s.accept p)).rightful = h.rightful := after_rightful nofun
  have hknows : ∀ mac, (h.after s c (s.accept p)).knows mac = (h.knows mac || sameMac p.mac mac) :=
    fun _ => knows_accepted rfl hc hp
  refine ⟨nofun, fun ha _ => if_pos ha, ?_, ?_⟩
  · intro hr q hq
    rw [hrightful] at hr
    rw [hknows]
    by_cases h : s.preempting = none ∨ s.active = none
    · have hactive : (s.accept p).active = some p.peer := Parties.accept_active h
      obtain rfl : p.peer = q := Option.some.inj (hactive.symm.trans hq)
      simp [PendingPeer.peer]
    · rw [Parties.accept_active_eq_self h] at hq
      simp [hs.active hr q hq]
  · intro ha
    rw [hrightful]
    exact hs.rightful ha

theorem Backs.after_launch {l : Launch} (hs : h.Backs s) (hl : s.Admits l)
    (hc : c.any Command.accepts = false) : (h.after s c (s.launch l)).Backs (s.launch l) := by
  have haccepted : (h.after s c (s.launch l)).accepted = h.accepted := after_accepted rfl hc
  have hrightful : (h.after s c (s.launch l)).rightful = (h.rightful && h.knows l.peer.mac) := by
    simp [History.after, Parties.launch, hl.1]
  refine ⟨nofun, fun _ _ => rfl, ?_, ?_⟩
  · intro hr q hq
    obtain rfl : l.peer = q := Option.some.inj hq
    rw [hrightful, Bool.and_eq_true] at hr
    rw [knows, haccepted]
    exact hr.2
  · intro ha
    have hr := hs.rightful ha
    have hwaits : s.phase = .connectionAccepted → s.preempting = none := by
      intro hphase
      exact hs.nobody_waits ha (by simp [hphase, Phase.holdsPendingPeer])
    rw [hrightful, hr, Bool.true_and]
    apply hs.knows_of_admits hr _ hl
    intro hphase p hp
    simp [hwaits hphase] at hp

theorem Backs.after (hs : h.Backs s) (hshift : Shift s c t) : (h.after s c t).Backs t := by
  cases hshift with
  | stay hc hwaits =>
    by_cases hforgets : s.phase.forgetsPeers = true
    · exact hs.after_forgotten hforgets rfl (hs.forgotten hforgets) hwaits
    · rw [Bool.not_eq_true] at hforgets
      refine hs.after_unchanged hforgets rfl ?_ rfl (fun _ hp => hp) hwaits
      cases c <;> simp_all
  | @rest _ target hc htarget =>
    have hforgets := Phase.forgetsPeers_of_isUnengaged htarget
    exact hs.after_forgotten hforgets rfl (if_pos hforgets) fun _ => if_pos hforgets
  | flush ha hphase hp hactive =>
    exact hs.after_unchanged (Phase.forgetsPeers_of_holdsPendingPeer hphase) rfl rfl rfl nofun
      fun _ => rfl
  | accept hphase hp => exact hs.after_accept hp rfl
  | acceptDirect hphase hp hl => exact hs.after_accept hp rfl
  | reject hphase => exact hs.after_forgotten rfl rfl rfl fun _ => rfl
  | restart hphase hrestarting => exact hs.after_forgotten rfl rfl rfl fun _ => rfl
  | launch hl =>
    apply hs.after_launch hl
    split <;> rfl

theorem Backs.ask {target : Phase} {p : PendingPeer} (hs : h.Backs s)
    (htarget : target.holdsPendingPeer = true) : h.Backs (s.ask target p) where
  forgotten hforgets := nomatch (Phase.forgetsPeers_of_holdsPendingPeer htarget).symm.trans hforgets
  nobody_waits _ hphase := nomatch htarget.symm.trans hphase
  active := hs.active
  rightful := hs.rightful

end Shift

end History

namespace World

variable {w : World} {h : History} {ts : List Turn}

/-- What has happened after several turns. -/
def history (w : World) (h : History) : List Turn → History
  | [] => h
  | t :: ts =>
    (w.turn t).2.history (h.after (w.opened t) (w.turn t).1 (w.turn t).2.machine.parties) ts

theorem backs_opened (hs : h.Backs w.machine.parties) (t : Turn) : h.Backs (w.opened t) := by
  rcases w.opened_eq_or t with hopened | ⟨target, p, htarget, hopened⟩
  · rwa [hopened]
  · rw [hopened]
    exact hs.ask htarget

theorem Reachable.backs_turns (hw : w.Reachable) (hs : h.Backs w.machine.parties)
    (hts : w.AllPossible ts) : (w.history h ts).Backs (w.turns ts).machine.parties := by
  induction ts generalizing w h with
  | nil => exact hs
  | cons t ts ih =>
    exact ih (hw.turn t hts.1) ((backs_opened hs t).after (hw.shift hts.1)) hts.2

theorem Reachable.automatic_turns (hw : w.Reachable) (hts : w.AllPossible ts) :
    (w.turns ts).machine.parties.automatic = w.machine.parties.automatic := by
  induction ts generalizing w with
  | nil => rfl
  | cons t ts ih =>
    have hopened : (w.opened t).automatic = w.machine.parties.automatic := by
      rcases w.opened_eq_or t with hopened | ⟨target, p, -, hopened⟩ <;> rw [hopened]
      rfl
    rw [← hopened, ← (hw.shift hts.1).automatic_eq]
    exact ih (hw.turn t hts.1) hts.2

/-- A launch that is reported now is honoured. -/
def Honours (w : World) (l : Launch) : Prop :=
  w.machine.phase ≠ .playerLaunched ∧
    (w.turn (.happen (.call (.report (.launchRequest l true))))).2.machine.phase = .playerLaunched

theorem honours_iff {l : Launch} : w.Honours l ↔ w.machine.parties.Admits l := by
  have hturn : (w.turn (.happen (.call (.report (.launchRequest l true))))).2 =
      (((w.machine.acceptedLaunch l).returning Reply.nothing).pause w.waiting).2 := rfl
  rw [Honours]
  rw [hturn]
  by_cases hadmits : w.machine.parties.Admits l
  · have hphase : w.machine.phase = .connectionAccepted := hadmits.1
    have hlaunched : (w.machine.launched l).phase = .playerLaunched :=
      congrArg Parties.phase Machine.parties_launched
    rw [Machine.acceptedLaunch_of_admits hadmits]
    refine iff_of_true ⟨by simp [hphase], ?_⟩ hadmits
    split <;> exact hlaunched
  · rw [Machine.acceptedLaunch_of_not_admits hadmits]
    exact iff_of_false (fun h => h.1 h.2) hadmits

/-- The peers that may launch have been accepted, unless the one that asks to take over has not. -/
theorem launches_iff_accepted {settings : SessionSettings} {nameSource : Option NameSource}
    (hts : (fresh settings nameSource).AllPossible ts) :
    let w := (fresh settings nameSource).turns ts
    let h := (fresh settings nameSource).history {} ts
    (settings.autoAccept = true →
      h.rightful = true ∧ ∀ l, w.Honours l → h.knows l.sourceMac = true) ∧
    (h.rightful = true →
      ((∀ l, w.Honours l → h.knows l.sourceMac = true) ↔
        (w.machine.phase = .connectionAccepted →
          ∀ p ∈ w.machine.session.preempting, h.knows p.mac = true))) := by
  intro w h
  have hfresh := Reachable.fresh settings nameSource
  have hbacks : h.Backs w.machine.parties :=
    hfresh.backs_turns ⟨fun _ => rfl, fun _ _ => rfl, nofun, fun _ => rfl⟩ hts
  have hauto : w.machine.parties.automatic = settings.autoAccept := hfresh.automatic_turns hts
  constructor
  · intro ha
    rw [← hauto] at ha
    have hrightful := hbacks.rightful ha
    refine ⟨hrightful, fun l hl => hbacks.knows_of_admits hrightful ?_ (honours_iff.1 hl)⟩
    intro hphase p hp
    rw [hbacks.nobody_waits ha (by simp [hphase, Phase.holdsPendingPeer])] at hp
    cases hp
  · intro hrightful
    constructor
    · intro hall hphase p hp
      let l : Launch := ⟨default, p.mac, p.name, default⟩
      have hadmits : w.machine.parties.Admits l :=
        ⟨hphase, p, List.mem_append_right _ (Option.mem_toList.2 hp), sameMac_refl _⟩
      exact hall l (honours_iff.2 hadmits)
    · intro hpreempting l hl
      exact hbacks.knows_of_admits hrightful hpreempting (honours_iff.1 hl)

/-- A peer that asked while another one played was accepted, and only they may launch. -/
theorem launches_accepted_of_two :
    ∃ ts l, ((fresh {} none).turns ts).Honours l ∧ ((fresh {} none).history {} ts).rightful = true ∧
      ∀ l, ((fresh {} none).turns ts).Honours l →
        ((fresh {} none).history {} ts).knows l.sourceMac = true := by
  let ts := overlapping.take 7 ++ [.happen (.call (.decide "Accept"))]
  let l : Launch := ⟨.v4 ⟨10, 0, 0, 3⟩, "bb", "B", .v4 ⟨10, 0, 0, 1⟩⟩
  have hts : (fresh {} none).AllPossible ts := by decide +kernel
  have hrightful : ((fresh {} none).history {} ts).rightful = true := by decide +kernel
  have haccepted : ∀ p ∈ ((fresh {} none).turns ts).machine.session.preempting,
      ((fresh {} none).history {} ts).knows p.mac = true := by decide +kernel
  have hl : ((fresh {} none).turns ts).Honours l := ⟨by decide +kernel, by decide +kernel⟩
  exact ⟨ts, l, hl, hrightful,
    ((launches_iff_accepted hts).2 hrightful).2 fun _ => haccepted⟩

/-- Of two peers that ask while a third one plays, the first may launch once the second is
accepted. -/
theorem honoured_not_accepted :
    ¬∀ (settings : SessionSettings) (nameSource : Option NameSource) (ts : List Turn) (l : Launch),
      (fresh settings nameSource).AllPossible ts →
      ((fresh settings nameSource).turns ts).Honours l →
      ((fresh settings nameSource).history {} ts).knows l.sourceMac = true := by
  intro h
  let ts := overlapping ++ [.happen (.call (.decide "Accept"))]
  let l : Launch := ⟨.v4 ⟨10, 0, 0, 3⟩, "bb", "B", .v4 ⟨10, 0, 0, 1⟩⟩
  have hts : (fresh {} none).AllPossible ts := by decide +kernel
  have hl : ((fresh {} none).turns ts).Honours l := ⟨by decide +kernel, by decide +kernel⟩
  have hunknown : ((fresh {} none).history {} ts).knows "bb" = false := by decide +kernel
  exact nomatch hunknown.symm.trans (h {} none ts l hts hl)

end World

end CastReceiver
