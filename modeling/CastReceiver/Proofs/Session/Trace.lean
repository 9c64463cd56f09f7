import CastReceiver.Proofs.Conduct

/-!
# The trace of the phases

The changes of the phase that are announced form a trace: each sets out from where the one before
has led, the last one has led to the present phase, and each is legal. Only a shutdown, which
forgets the session without a word, breaks the trace.
-/
namespace CastReceiver

theorem Phase.isUnengaged_eq_false_iff {p : Phase} :
    p.isUnengaged = false ↔ p ≠ .idle ∧ p ≠ .discoverable := by
  cases p <;> decide

theorem Phase.eq_of_awaitsRestart {p : Phase} (h : p.awaitsRestart = true) :
    p = .restartingSession ∨ p = .connectionRejected ∨ p = .abortingConnection := by
  cases p <;> simp_all [awaitsRestart]

/-- A phase may follow another one. -/
structure Phase.Follows (source target : Phase) : Prop where
  /-- Only a request for a connection may come again. -/
  again : source = target → target = .connecting
  direct : source = .directLaunchRequested ↔ target = .directLaunchConnecting
  to_aborting : target = .abortingConnection → source = .connectionAccepted
  from_aborting : source = .abortingConnection →
    target = .restartingSession ∨ target = .idle
  decided : target = .connectionAccepted ∨ target = .connectionRejected →
    source = .connecting ∨ source = .directLaunchConnecting
  launched : target = .playerLaunched → source = .connectionAccepted
  advertised : target = .discoverable →
    source = .idle ∨ source = .connectionRejected ∨ source = .restartingSession
  /-- Only with a peer that asks does a session begin. -/
  engaged : target.isUnengaged = false → target.holdsPendingPeer = false →
    source.isUnengaged = false

/-- A change that may be announced. It names the session, if there is one then. -/
structure Change.Legal (c : Change) : Prop where
  follows : c.source.Follows c.target
  named : c.id.isSome = true ↔ c.target ≠ .idle ∧ c.target ≠ .discoverable

/-- Changes lead from one phase to another, each from where the one before has led. -/
def Leads : Phase → List Change → Phase → Prop
  | p, [], q => p = q
  | p, c :: cs, q => c.source = p ∧ Leads c.target cs q

theorem Leads.concat {p q : Phase} {cs : List Change} (h : Leads p cs q) {c : Change}
    (hc : c.source = q) : Leads p (cs ++ [c]) c.target := by
  induction cs generalizing p with
  | nil => exact ⟨hc.trans h.symm, rfl⟩
  | cons d ds ih => exact ⟨h.1, ih h.2⟩

namespace Account

variable {o : Occurrence} {a b : Account}

/-- What has been announced is the way to the present phase and name. -/
structure Traced (a : Account) : Prop where
  leads : Leads .idle a.changes a.phase
  legal : ∀ c ∈ a.changes, c.Legal
  named : a.id.isSome = !a.phase.isUnengaged

/-- Only a change of the phase makes the trace longer. -/
theorem Traced.note (h : a.Traced) {mark : Mark} (hmark : mark.change? = none) :
    (a.note mark).Traced := by
  have hchanges : (a.note mark).changes = a.changes := by
    simp [changes, Account.note, hmark]
  exact ⟨hchanges ▸ h.leads, hchanges ▸ h.legal, h.named⟩

/-- A gate is not part of the trace. -/
theorem Traced.withGate (h : a.Traced) (gate : Gate) : { a with gate }.Traced :=
  ⟨h.leads, h.legal, h.named⟩

/-- Entering a phase that does not begin an attempt is announced only if it changes the phase. -/
theorem changes_enter {target : Phase} :
    (a.enter target).changes =
      if a.phase = target && !target.holdsPendingPeer then a.changes
      else a.changes ++ [⟨a.phase, target, (a.enter target).id⟩] := by
  rw [changes, enter_log]
  split
  · rfl
  · rw [List.filterMap_append]
    rfl

/-- Exactly the phases with a peer have a name. -/
def Named (a : Account) : Prop :=
  a.id.isSome = !a.phase.isUnengaged

theorem Named.enter (h : a.Named) {target : Phase}
    (hengaged : target.isUnengaged = false → target.holdsPendingPeer = false →
      a.phase.isUnengaged = false) : (a.enter target).Named := by
  rw [Named, enter_phase, enter_id]
  cases hunengaged : target.isUnengaged with
  | true => rfl
  | false =>
    cases hholds : target.holdsPendingPeer with
    | false => rw [if_neg (by decide), if_neg (by simp), h, hengaged hunengaged hholds]
    | true =>
      by_cases hdirect : a.phase = .directLaunchRequested
      · rw [if_neg (by decide), if_neg (by simp [hdirect]), h, hdirect]
        rfl
      · rw [if_neg (by decide), if_pos (by simp [hdirect])]
        rfl

/-- A phase with a peer begins with a request, or follows another one. -/
theorem engaged_of_mayEnter {target : Phase} (h : a.MayEnter target)
    (hunengaged : target.isUnengaged = false) (hholds : target.holdsPendingPeer = false) :
    a.phase.isUnengaged = false := by
  cases target with
  | idle | discoverable => cases hunengaged
  | connecting | directLaunchRequested | directLaunchConnecting => cases hholds
  | connectionAccepted | connectionRejected =>
    rcases h with hphase | hphase <;> rw [hphase] <;> rfl
  | restartingSession => exact h
  | abortingConnection | playerLaunched => cases h

/-- A phase that is entered once more is not announced. -/
theorem Traced.enter_same (h : a.Traced) (hholds : a.phase.holdsPendingPeer = false) :
    (a.enter a.phase).Traced := by
  have hchanges : (a.enter a.phase).changes = a.changes := by
    rw [changes_enter, if_pos (by simp [hholds])]
  refine ⟨?_, hchanges ▸ h.legal, Named.enter h.named fun hengaged _ => hengaged⟩
  rw [hchanges, enter_phase]
  exact h.leads

/-- A phase that may follow is announced as a legal change. -/
theorem Traced.enter (h : a.Traced) {target : Phase} (hfollows : a.phase.Follows target) :
    (a.enter target).Traced := by
  have hnamed : (a.enter target).Named := Named.enter h.named hfollows.engaged
  have hchanges : (a.enter target).changes =
      a.changes ++ [⟨a.phase, target, (a.enter target).id⟩] := by
    rw [changes_enter, if_neg]
    intro hsilent
    rw [Bool.and_eq_true, decide_eq_true_eq] at hsilent
    rw [hfollows.again hsilent.1] at hsilent
    exact absurd hsilent.2 (by decide)
  refine ⟨?_, fun c hc => ?_, hnamed⟩
  · rw [hchanges, enter_phase]
    exact h.leads.concat rfl
  · rw [hchanges] at hc
    rcases List.mem_append.1 hc with hc | hc
    · exact h.legal c hc
    · obtain rfl := List.mem_singleton.1 hc
      refine ⟨hfollows, ?_⟩
      rw [Named, enter_phase] at hnamed
      rw [hnamed, Bool.not_eq_true', Phase.isUnengaged_eq_false_iff]

/-- A phase that may be entered stays the same or may follow. -/
theorem follows_of_mayEnter (ha : a.Settled) {target : Phase} (h : a.MayEnter target) :
    (a.phase = target ∧ target.holdsPendingPeer = false) ∨ a.phase.Follows target := by
  obtain ⟨hdirect, haborting⟩ := ha
  by_cases hsame : a.phase = target ∧ target.holdsPendingPeer = false
  · exact .inl hsame
  · right
    have hagain : a.phase = target → target = .connecting := by
      intro heq
      have hholds : target.holdsPendingPeer = true :=
        Bool.not_eq_false _ ▸ fun hholds => hsame ⟨heq, hholds⟩
      cases target with
      | connecting => rfl
      | directLaunchRequested | directLaunchConnecting => cases h
      | _ => cases hholds
    have hadvertised : target = .discoverable →
        a.phase = .connectionRejected ∨ a.phase = .restartingSession := by
      rintro rfl
      rcases Phase.eq_of_awaitsRestart h.1 with hphase | hphase | hphase
      · exact .inr hphase
      · exact .inl hphase
      · exact absurd hphase haborting
    constructor
    case again => exact hagain
    case engaged => exact engaged_of_mayEnter h
    all_goals cases target <;> simp_all [MayEnter]

/-- Every deed but the forgetting of a shutdown makes the trace longer in a legal way. -/
theorem Traced.deed (ht : a.Traced) (ha : a.Settled) (ho : o ≠ .call .shutdown)
    (h : Deed o a b) : b.Traced := by
  cases h with
  | enter h =>
    rcases follows_of_mayEnter ha h with ⟨rfl, hholds⟩ | hfollows
    · exact ht.enter_same hholds
    · exact ht.enter hfollows
  | directLaunch =>
    have hrequested : a.phase.Follows .directLaunchRequested := by
      obtain ⟨hdirect, haborting⟩ := ha
      constructor <;> simp_all [Phase.holdsPendingPeer]
    apply (ht.enter hrequested).enter
    rw [enter_phase]
    constructor <;> decide
  | abort h htarget =>
    have haborting : a.phase.Follows .abortingConnection := by
      rw [h]
      constructor <;> decide
    apply (ht.enter haborting).enter
    rw [enter_phase]
    rcases htarget with rfl | rfl <;> constructor <;> decide
  | launch _ h hmark =>
    have hlaunched : a.phase.Follows .playerLaunched := by
      rw [h]
      constructor <;> decide
    rcases hmark with rfl | rfl <;> exact (ht.enter hlaunched).note rfl
  | command => exact ht.note rfl
  | startDiscovery =>
    refine startDiscovery_keeps (fun _ h => h.note rfl) (fun hidle => ?_) fun _ => ht.withGate _
    apply (ht.withGate _).enter
    rw [hidle]
    constructor <;> decide
  | stopDiscovery =>
    refine stopDiscovery_keeps (fun _ h => h.note rfl) (fun hdiscoverable => ?_)
      fun _ => ht.withGate _
    apply (ht.withGate _).enter
    rw [hdiscoverable]
    constructor <;> decide
  | switchOn => exact (ht.withGate _).note rfl
  | switchOff => exact ht.withGate _
  | announceOff => exact ht.note rfl
  | leave hshutdown | forget hshutdown => exact absurd hshutdown ho

/-- A stretch of work that belongs to no shutdown keeps the trace. -/
theorem Traced.deeds (ht : a.Traced) (ha : a.Settled) (ho : o ≠ .call .shutdown)
    (h : Deeds o a b) : b.Traced := by
  have hboth : b.Traced ∧ b.Settled :=
    h.keeps (P := fun a => a.Traced ∧ a.Settled)
      (fun _ _ ha h => ⟨ha.1.deed ha.2 ho h, ha.2.deed h⟩) ⟨ht, ha⟩
  exact hboth.1

theorem traced_fresh (settings : SessionSettings) (nameSource : Option NameSource) :
    (World.fresh settings nameSource).machine.account.Traced where
  leads := rfl
  legal := nofun
  named := rfl

end Account

namespace World

variable {settings : SessionSettings} {nameSource : Option NameSource} {ts : List Turn}

/-- What has been announced of the phases, wherever a run without shutdown stops: at a command or
between operations. -/
theorem phases_traced (hts : (fresh settings nameSource).AllPossible ts)
    (hshutdown : .happen (.call .shutdown) ∉ ts) :
    let a := ((fresh settings nameSource).turns ts).machine.account
    Leads .idle a.changes a.phase ∧ ∀ c ∈ a.changes, c.Legal := by
  have htraced := Regime.turns_keep conduct_governs (P := fun o => o ≠ .call .shutdown)
    (fun _ _ => rfl) (fun _ _ _ _ ho ha h ht => ht.deeds ha ho h)
    (Regime.attended_fresh conduct_governs settings nameSource) nofun hts
    (fun o ho => by rintro rfl; exact hshutdown ho)
    (Account.traced_fresh settings nameSource)
  exact ⟨htraced.leads, htraced.legal⟩

/-- While its acceptance is passed on, a peer stops the connection, and discovery restarts while it
is told to. -/
theorem phases_traced_of_nested_stop :
    let ts : List Turn := [.happen (.call (.setEnabled true)), .resume,
      .happen (.call (.report (.connectionRequest "aa" "A"))),
      .happen (.call (.decide "Accept")), .happen (.call (.stop "aa" "A")),
      .happen (.call (.report .discoveryRestarted))]
    let a := ((fresh {} none).turns ts).machine.account
    a.changes.map Change.target = [.discoverable, .connecting, .connectionAccepted,
        .abortingConnection, .restartingSession, .discoverable] ∧
      Leads .idle a.changes a.phase ∧ ∀ c ∈ a.changes, c.Legal := by
  intro ts a
  have hts : (fresh {} none).AllPossible ts := by decide +kernel
  have htargets : a.changes.map Change.target = [.discoverable, .connecting,
      .connectionAccepted, .abortingConnection, .restartingSession, .discoverable] := by
    decide +kernel
  exact ⟨htargets, phases_traced hts (by decide +kernel)⟩

end World

end CastReceiver
