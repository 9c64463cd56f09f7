import CastReceiver.Proofs.Session.Endings

/-!
# The context of a direct launch

A direct launch says where its stream comes from and where it goes. In manual mode this waits with
the pending peer until somebody decides; nothing but a newer request touches it as long as the
decision is open, so an acceptance passes on exactly what the launch has said. In automatic mode it
is passed on at once.
-/
namespace CastReceiver

/-- What every stretch of work keeps is kept by a run with which nobody interferes. -/
theorem Run.Completes.quietly {σ α : Type} {d : Discipline σ} {P : σ → Prop}
    (hkept : ∀ s c t, d.good s → P s → d.allows s c t → d.good t ∧ P t) {r : Run α} {s : σ}
    (hr : r.Completes d s) (hgood : d.good s) (hs : P s) :
    d.good (d.view r.quietly.1) ∧ P (d.view r.quietly.1) := by
  induction r generalizing s with
  | done m a => exact hkept s none _ hgood hs hr
  | issue m c next ih =>
    obtain ⟨hgood', hm⟩ := hkept s (some c) _ hgood hs hr.1
    exact ih m (hr.2 m hgood') hgood' hm

/-! ## The context waits -/

namespace Parties

/-- In manual mode, a direct launch that is negotiated is the one of this peer. -/
structure Awaits (p : PendingPeer) (s : Parties) : Prop where
  manual : s.automatic = false
  pending : s.phase = .directLaunchConnecting → s.pending = some p

/-- Only a request makes another peer the pending one. -/
theorem Awaits.shift {p : PendingPeer} {s t : Parties} {c : Option Command} (hs : s.Awaits p)
    (h : Shift s c t) : t.Awaits p := by
  refine ⟨h.automatic_eq.trans hs.manual, fun hphase => ?_⟩
  cases h with
  | stay | flush => exact hs.pending hphase
  | rest _ htarget =>
    change _ = Phase.directLaunchConnecting at hphase
    subst hphase
    exact nomatch htarget
  | accept | acceptDirect | reject | restart | launch => exact nomatch hphase

end Parties

namespace Occurrence

/-- Nothing but a request is taken in before anything happens. -/
theorem opened_of_requester_eq_none {o : Occurrence} (ho : o.requester? = none) (m : Machine) :
    o.opened m = m.parties := by
  unfold opened
  split
  case h_1 | h_2 => exact nomatch ho
  case h_3 => rfl

end Occurrence

namespace Machine

variable {m m₁ : Machine} {os : List Occurrence} {p : PendingPeer} {l : Launch} {text : String}

theorem undergo_awaits {o : Occurrence} (hm : m.parties.Kept) (hp : m.parties.Awaits p)
    (ho : o.Possible m) (hrequester : o.requester? = none) :
    (m.undergo o).parties.Kept ∧ (m.undergo o).parties.Awaits p := by
  have hruns := shifting_governs.runs m o hm ho
  rw [o.opened_of_requester_eq_none hrequester] at hruns
  refine Run.Completes.quietly (P := fun s => s.Awaits p) (fun s c t hs hawaits h => ?_) hruns hm hp
  have hshift : Shift s c t := h
  exact ⟨hshift.kept hs.toPendingKept, hawaits.shift hshift⟩

theorem undergoes_awaits (hm : m.parties.Kept) (hp : m.parties.Awaits p)
    (hos : m.AllPossible os) (hrequesters : ∀ o ∈ os, o.requester? = none) :
    (m.undergoes os).parties.Kept ∧ (m.undergoes os).parties.Awaits p := by
  induction os generalizing m with
  | nil => exact ⟨hm, hp⟩
  | cons o os ih =>
    obtain ⟨hm', hp'⟩ := undergo_awaits hm hp hos.1 (hrequesters o (by simp))
    exact ih hm' hp' hos.2 fun o' ho' => hrequesters o' (by simp [ho'])

/-- A direct launch is taken in and considered. -/
theorem undergo_directLaunch (henabled : m.gate.enabled = true) (l : Launch) :
    m.undergo (.call (.report (.launchRequest l false))) =
      ((m.takeIn (.launch l)).considerRequest l.sourceMac l.sourceName).quietly.1 := by
  rw [← directLaunch_takeIn henabled]
  exact congrArg Prod.fst (Run.quietly_map (m.directLaunch l) _)

/-- In manual mode a direct launch that is taken in waits for a decision. -/
theorem parties_directLaunch (henabled : m.gate.enabled = true)
    (hmanual : m.settings.autoAccept = false) (l : Launch) :
    (m.undergo (.call (.report (.launchRequest l false)))).parties =
      m.parties.ask .directLaunchConnecting (.ofLaunch l) := by
  have hmanual' : ¬(m.takeIn (.launch l)).settings.autoAccept = true := by
    rw [(m.takeIn_watchdogs (.launch l)).2, hmanual]
    exact Bool.false_ne_true
  rw [undergo_directLaunch henabled, considerRequest, if_neg hmanual']
  exact m.parties_takeIn (.launch l)

/-! ## The context is passed on -/

theorem quietly_decide {d : Decision} (htext : Decision.parse? text = some d) :
    (m.decide text).quietly.1 = (m.applyDecision d).quietly.1 := by
  rw [decide, htext]
  exact congrArg Prod.fst (Run.quietly_map ..)

/-- The phases through which a bid is taken in are announced, and nothing else is said. -/
theorem commands_takeIn (m : Machine) (l : Launch) :
    ∃ es, m.Says (m.takeIn (.launch l)) es ∧ es.filterMap Event.command? = [] := by
  have hasked : m.Says (m.askToTakeOver l.peer) [] := by
    rw [askToTakeOver]
    split <;> exact says_nil rfl rfl
  let m₁ := (m.askToTakeOver l.peer).enter .directLaunchRequested (some (.ofLaunch l))
  have hrequested : (m.askToTakeOver l.peer).Says m₁ _ := says_enter (.inr rfl) _
  have hconnecting : m₁.Says (m₁.enter .directLaunchConnecting (some (.ofLaunch l))) _ :=
    says_enter (.inr rfl) _
  exact ⟨_, (hasked.trans hrequested).trans hconnecting, rfl⟩

/-- Whoever has been playing is dropped before a peer is accepted. -/
theorem says_endPreempted (m : Machine) :
    let m' := m.endPreempted.quietly.1
    m'.phase = m.phase ∧ m'.session.pending = m.session.pending ∧
      ∃ es, m.Says m' es ∧ es.filterMap Event.command? =
        if m.session.preempting.isSome && m.session.active.isSome then [.flushCurrentSession]
        else [] := by
  intro m'
  cases hpreempting : m.session.preempting with
  | none =>
    have hm' : m' = m := congrArg (fun r => r.quietly.1) (endPreempted_of_none hpreempting)
    rw [hm']
    exact ⟨rfl, rfl, [], says_nil rfl rfl, rfl⟩
  | some q =>
    have hdropped : m.Says ((m.setPreempting none).setActive none) [] := says_nil rfl rfl
    have hsome : m.session.preempting.isSome = true := by rw [hpreempting]; rfl
    cases hactive : m.session.active with
    | some p =>
      have hm' : m' = (((m.setPreempting none).setActive none).notifyError p .newConnection).emit
          (.command .flushCurrentSession) :=
        congrArg (fun r => r.quietly.1) (endPreempted_of_some hsome hactive)
      rw [hm']
      exact ⟨rfl, rfl, _, (hdropped.trans (says_emit _ _)).trans (says_emit _ _), rfl⟩
    | none =>
      have hm' : m' = (m.setPreempting none).setActive none := by
        show m.endPreempted.quietly.1 = _
        rw [endPreempted, if_pos hsome]
        dsimp only
        rw [hactive]
        rfl
      rw [hm']
      exact ⟨rfl, rfl, [], hdropped, rfl⟩

/-- A direct launch keeps its context, whatever the machine is doing when it arrives. In manual mode
it becomes the pending peer, with the addresses of both sides; after anything but a newer request,
if the decision about a direct launch is still open, an acceptance passes the launch on as it came
and issues no other command, and a rejection ends the session for its peer. In automatic mode the
launch is passed on before the request is over. -/
theorem directLaunch_keeps_context (m : Machine) (l : Launch) (henabled : m.gate.enabled = true) :
    let m₁ := m.undergo (.call (.report (.launchRequest l false)))
    (m.settings.autoAccept = false →
      m₁.phase = .directLaunchConnecting ∧
      m₁.session.pending =
        some ⟨l.sourceMac, l.sourceName, some l.sourceIp, some l.sinkIp⟩ ∧
      ∀ os, m₁.AllPossible os → (∀ o ∈ os, o.requester? = none) →
        let m₂ := m₁.undergoes os
        m₂.phase = .directLaunchConnecting →
          (∀ text, Decision.parse? text = some .accept →
            m₂.Says (m₂.undergo (.call (.decide text)))
              [Change.announced ⟨.directLaunchConnecting, .connectionAccepted, m₂.session.id⟩ m₂.now,
                .command (.switchLaunchRequestContext l)]) ∧
          ∀ text, Decision.parse? text = some .reject →
            m₂.Closes (m₂.undergo (.call (.decide text)))
              [Change.announced ⟨.directLaunchConnecting, .connectionRejected, m₂.session.id⟩ m₂.now]
              .connectionRejected l.sourceMac) ∧
    (m.settings.autoAccept = true →
      ∃ es, m.Says m₁ es ∧ es.filterMap Event.command? =
        (if (m.phase = .playerLaunched ∨ m.session.preempting.isSome = true) ∧
            m.session.active.isSome = true then [.flushCurrentSession] else []) ++
          [.switchLaunchRequestContext l]) := by
  intro m₁
  constructor
  · intro hmanual
    have hparties : m₁.parties = m.parties.ask .directLaunchConnecting (.ofLaunch l) :=
      parties_directLaunch henabled hmanual l
    have hautomatic : m₁.parties.automatic = false := by rw [hparties]; exact hmanual
    have hpending : m₁.session.pending = some (.ofLaunch l) :=
      congrArg Parties.pending hparties
    have hkept : m₁.parties.Kept := by
      refine ⟨?_, fun hauto => nomatch hautomatic.symm.trans hauto⟩
      rw [hparties]
      exact m.parties.pendingKept_ask_direct l
    refine ⟨congrArg Parties.phase hparties, hpending, ?_⟩
    intro os hos hrequesters m₂ hphase
    obtain ⟨-, hawaits⟩ :=
      undergoes_awaits hkept ⟨hautomatic, fun _ => hpending⟩ hos hrequesters
    have hpending₂ : m₂.session.pending = some (.ofLaunch l) := hawaits.pending hphase
    refine ⟨fun text htext => ?_, fun text htext => ?_⟩ <;> rw [m₂.undergo_decide]
    · rw [quietly_decide htext]
      exact says_acceptance (b := .launch l) hphase hpending₂
    · exact decide_reject_closes hphase hpending₂ htext
  · intro hauto
    let m₂ := m.takeIn (.launch l)
    have hauto₂ : m₂.settings.autoAccept = true := by
      rw [(m.takeIn_watchdogs (.launch l)).2]
      exact hauto
    have hparties : m₂.parties = m.parties.ask .directLaunchConnecting (.ofLaunch l) :=
      m.parties_takeIn (.launch l)
    have hactive : m₂.session.active = m.session.active := congrArg Parties.active hparties
    have hpreempting : m₂.session.preempting = if m.phase = .playerLaunched then
        some l.peer else m.session.preempting := congrArg Parties.preempting hparties
    obtain ⟨es, hopened, hes⟩ := m.commands_takeIn l
    obtain ⟨hphase₃, hpending₃, es', hdropped, hes'⟩ := m₂.says_endPreempted
    let m₃ := m₂.endPreempted.quietly.1
    have haccepted := says_acceptance (m := m₃) (b := .launch l)
      (hphase₃.trans (congrArg Parties.phase hparties))
      (hpending₃.trans (congrArg Parties.pending hparties))
    have hrun : m₁ = (m₃.applyDecision .accept).quietly.1 := by
      show m.undergo _ = _
      rw [undergo_directLaunch henabled, considerRequest, if_pos hauto₂, Run.quietly_andThen]
      exact congrArg Prod.fst (Run.quietly_map ..)
    rw [hrun]
    refine ⟨_, (hopened.trans hdropped).trans haccepted, ?_⟩
    rw [List.filterMap_append, List.filterMap_append, hes, hes', List.nil_append, hactive,
      hpreempting]
    congr 1
    by_cases hlaunched : m.phase = .playerLaunched <;> simp [hlaunched]

/-- While a direct launch waits, the player reports, a network is lost, somebody stops a connection
that there is not, a launch is reported that nobody has accepted, and most of the time passes. -/
theorem directLaunch_keeps_context_meanwhile :
    ∃ m : Machine, ∃ l : Launch, ∃ os : List Occurrence,
      let m₁ := m.undergo (.call (.report (.launchRequest l false)))
      let m₂ := m₁.undergoes os
      m₁.AllPossible os ∧ os ≠ [] ∧ m₂.Says (m₂.undergo (.call (.decide "Accept")))
        [Change.announced ⟨.directLaunchConnecting, .connectionAccepted, m₂.session.id⟩ m₂.now,
          .command (.switchLaunchRequestContext l)] := by
  let l : Launch := ⟨.v4 ⟨10, 0, 0, 2⟩, "aa", "A", .v4 ⟨10, 0, 0, 1⟩⟩
  let m := (World.fresh {} none).machine.undergo (.call (.setEnabled true))
  let m₁ := m.undergo (.call (.report (.launchRequest l false)))
  let os : List Occurrence := [.call (.player "bb" "playing" 0),
    .call (.report (.wifiStateChanged .disconnected)), .call (.stop "bb" "B"),
    .call (.report (.launchRequest ⟨.v4 ⟨10, 0, 0, 3⟩, "aa", "A", .v4 ⟨10, 0, 0, 1⟩⟩ true)),
    .elapse 39999]
  have henabled : m.gate.enabled = true := by decide +kernel
  have hos : m₁.AllPossible os := by decide +kernel
  obtain ⟨-, -, hwaits⟩ := (directLaunch_keeps_context m l henabled).1 (by decide +kernel)
  obtain ⟨haccept, -⟩ := hwaits os hos (by decide +kernel) (by decide +kernel)
  exact ⟨m, l, os, hos, List.cons_ne_nil _ _, haccept "Accept" (by decide +kernel)⟩

end Machine

end CastReceiver
