import CastReceiver.Machine.Snapshot
import CastReceiver.Proofs.Conduct
import CastReceiver.Proofs.Discovery.Operations
import Mathlib.Data.List.Chain

/-!
# What a listener knows

Whoever hears every event knows the phase and the name of the session, whether the service is
enabled and whether discovery runs. An operation during which nobody interferes says all that it
changes of these, and starts or stops discovery only by turns.
-/
namespace CastReceiver

/-- Whether a command starts discovery or stops it, if it does one of both. -/
def Command.toggle? : Command → Option Bool
  | .restartDiscovery => some true
  | .stopDiscovery => some false
  | _ => none

def Mark.toggle? : Mark → Option Bool
  | command c => c.toggle?
  | _ => none

def Event.toggle? (e : Event) : Option Bool :=
  e.mark?.bind Mark.toggle?

/-- What can be known of a machine by its events. -/
structure Mirror where
  phase : Phase := .idle
  id : Option SessionId := none
  enabled : Bool := false
  active : Bool := false
  deriving DecidableEq

namespace Mirror

def learn (m : Mirror) : Mark → Mirror
  | .changed c => { m with phase := c.target, id := c.id }
  | .enabled enabled => { m with enabled }
  | .launch _ => m
  | .command c => { m with active := c.toggle?.getD m.active }

/-- What is known after one more event. -/
def hear (m : Mirror) (e : Event) : Mirror :=
  e.mark?.elim m m.learn

def ofSnapshot (s : Snapshot) : Mirror where
  phase := s.session.phase
  id := s.session.id
  enabled := s.gate.enabled
  active := s.gate.active

/-- Marks lead from what is known before them to what is known after them, and each that starts or
stops discovery changes something. -/
def Tells : Mirror → List Mark → Mirror → Prop
  | m, [], m' => m = m'
  | m, k :: ks, m' => (∀ b ∈ k.toggle?, m.active ≠ b) ∧ (m.learn k).Tells ks m'

variable {m m' m'' : Mirror} {ks ks' : List Mark} {es : List Event}

theorem Tells.append (h : m.Tells ks m') (h' : m'.Tells ks' m'') : m.Tells (ks ++ ks') m'' := by
  induction ks generalizing m with
  | nil =>
    obtain rfl := h
    exact h'
  | cons k ks ih => exact ⟨h.1, ih h.2⟩

theorem Tells.concat (h : m.Tells ks m') {k : Mark} (hk : ∀ b ∈ k.toggle?, m'.active ≠ b) :
    m.Tells (ks ++ [k]) (m'.learn k) :=
  h.append ⟨hk, rfl⟩

theorem Tells.foldl_learn (h : m.Tells ks m') : ks.foldl learn m = m' := by
  induction ks generalizing m with
  | nil => exact h
  | cons k ks ih => exact ih h.2

theorem foldl_hear (m : Mirror) (es : List Event) :
    es.foldl hear m = (es.filterMap Event.mark?).foldl learn m := by
  induction es generalizing m with
  | nil => rfl
  | cons e es ih =>
    rw [List.foldl_cons, ih, hear]
    cases h : e.mark? <;> simp [h]

theorem active_learn (m : Mirror) (k : Mark) : (m.learn k).active = k.toggle?.getD m.active := by
  cases k <;> rfl

/-- Discovery is started and stopped by turns. -/
theorem Tells.isChain (h : m.Tells ks m') :
    (m.active :: ks.filterMap Mark.toggle?).IsChain (· ≠ ·) := by
  induction ks generalizing m with
  | nil => exact .singleton _
  | cons k ks ih =>
    have hrest := ih h.2
    rw [active_learn] at hrest
    cases hk : k.toggle? with
    | none =>
      rw [hk] at hrest
      rwa [List.filterMap_cons_none hk]
    | some b =>
      rw [hk] at hrest
      rw [List.filterMap_cons_some hk]
      exact List.isChain_cons_cons.2 ⟨h.1 b hk, hrest⟩

/-! ## Hearing something twice -/

@[simp] theorem learn_learn (m : Mirror) (k : Mark) : (m.learn k).learn k = m.learn k := by
  cases k with
  | changed | enabled | launch => rfl
  | command c => cases hc : c.toggle? <;> simp [learn, hc]

/-- Two that agree after a mark agree after it also if they hear another one first. -/
theorem learn_learn_of_eq {k : Mark} (h : m.learn k = m'.learn k) (k' : Mark) :
    (m.learn k').learn k = (m'.learn k').learn k := by
  cases k <;> cases k' <;> simp_all [learn]
  case command.command c c' => cases hc : c.toggle? <;> simp_all

theorem foldl_learn_of_eq {k : Mark} (h : m.learn k = m'.learn k) (ks : List Mark) :
    (ks.foldl learn m).learn k = (ks.foldl learn m').learn k := by
  induction ks generalizing m m' with
  | nil => exact h
  | cons k' ks ih => exact ih (learn_learn_of_eq h k')

/-- Learning once more what has been learnt changes nothing: what is learnt last of anything
counts. -/
theorem foldl_learn_replay (m : Mirror) (ks : List Mark) :
    ks.foldl learn (ks.foldl learn m) = ks.foldl learn m := by
  -- From the end: after the last mark it does not matter whether that mark was known before.
  induction ks using List.reverseRecOn with
  | nil => rfl
  | append_singleton ks k ih =>
    simp only [List.foldl_append, List.foldl_cons, List.foldl_nil]
    rw [foldl_learn_of_eq (learn_learn (ks.foldl learn m) k), ih]

/-- It does no harm to hear everything twice. -/
theorem foldl_hear_replay (m : Mirror) (es : List Event) :
    es.foldl hear (es.foldl hear m) = es.foldl hear m := by
  simp only [foldl_hear]
  exact foldl_learn_replay m _

/-- Nor does it to hear only the latest of it once more. -/
theorem foldl_hear_drop (m : Mirror) (es : List Event) (n : Nat) :
    (es.drop n).foldl hear (es.foldl hear m) = es.foldl hear m := by
  have hsplit : es.foldl hear m = (es.drop n).foldl hear ((es.take n).foldl hear m) := by
    rw [← List.foldl_append, List.take_append_drop]
  rw [hsplit, foldl_hear_replay]

end Mirror

/-! ## What operations tell -/

namespace Account

variable {o : Occurrence} {m₀ m : Mirror} {a b : Account}

def mirror (a : Account) : Mirror where
  phase := a.phase
  id := a.id
  enabled := a.gate.enabled
  active := a.gate.active

/-- Whoever knew `m₀` knows `m` by the log, and is right about the phase and the name. -/
structure Believed (m₀ m : Mirror) (a : Account) : Prop where
  tells : m₀.Tells a.log m
  phase : m.phase = a.phase
  id : m.id = a.id

theorem Believed.note (h : a.Believed m₀ m) (mark : Mark) (hchange : mark.change? = none)
    (hmark : ∀ b ∈ mark.toggle?, m.active ≠ b) :
    (a.note mark).Believed m₀ (m.learn mark) := by
  refine ⟨h.tells.concat hmark, ?_, ?_⟩
  · cases mark with
    | changed => cases hchange
    | enabled | launch | command => exact h.phase
  · cases mark with
    | changed => cases hchange
    | enabled | launch | command => exact h.id

theorem Believed.withGate (h : a.Believed m₀ m) (gate : Gate) :
    { a with gate }.Believed m₀ m :=
  ⟨h.tells, h.phase, h.id⟩

/-- A phase that is entered is announced unless it is known. -/
theorem Believed.enter (h : a.Believed m₀ m) (hunnamed : a.Unnamed) (target : Phase) :
    (a.enter target).Believed m₀ { m with phase := target, id := (a.enter target).id } := by
  refine ⟨?_, (enter_phase ..).symm, rfl⟩
  rw [enter_log]
  split
  case isTrue hsilent =>
    rw [Bool.and_eq_true, decide_eq_true_eq, Bool.not_eq_true'] at hsilent
    obtain ⟨rfl, hholds⟩ := hsilent
    have hid : (a.enter a.phase).id = m.id := by
      rw [enter_id, h.id]
      split
      case isTrue hunengaged => exact (hunnamed hunengaged).symm
      case isFalse => rw [if_neg (by simp [hholds])]
    rw [hid, ← h.phase]
    exact h.tells
  case isFalse => exact h.tells.concat (k := .changed ⟨a.phase, target, (a.enter target).id⟩) nofun

/-- What is known by the log of a stretch of work that has found `m₀`. While the service is being
disabled, it is not yet known that it is. -/
def Informs (o : Occurrence) (m₀ : Mirror) (a : Account) : Prop :=
  ∃ m, a.Believed m₀ m ∧ m.active = a.gate.active ∧
    (o ≠ .call (.setEnabled false) → m.enabled = a.gate.enabled)

theorem Informs.enter (h : a.Informs o m₀) (hunnamed : a.Unnamed) (target : Phase) :
    (a.enter target).Informs o m₀ := by
  obtain ⟨m, hbelieved, hactive, henabled⟩ := h
  refine ⟨_, hbelieved.enter hunnamed target, ?_⟩
  rw [enter_gate]
  exact ⟨hactive, henabled⟩

/-- A command that neither starts nor stops discovery tells nothing. -/
theorem Informs.note_command (h : a.Informs o m₀) {c : Command} (hc : c.toggle? = none) :
    (a.note (.command c)).Informs o m₀ := by
  obtain ⟨m, hbelieved, hactive, henabled⟩ := h
  have hmark : (Mark.command c).toggle? = none := hc
  have hlearn : m.learn (.command c) = m := by rw [Mirror.learn, hc, Option.getD_none]
  have hnoted := hbelieved.note (.command c) rfl (by rw [hmark]; exact nofun)
  rw [hlearn] at hnoted
  exact ⟨m, hnoted, hactive, henabled⟩

theorem toggle?_eq_none_of_mayIssue {c : Command} (h : a.MayIssue c) : c.toggle? = none := by
  cases c with
  | restartDiscovery | stopDiscovery => cases h
  | _ => rfl

/-- Discovery that starts or stops is told of with the command that goes out. -/
theorem Informs.note_toggle (h : a.Informs o m₀) (hunnamed : a.Unnamed) (active : Bool)
    (hactive : a.gate.active = !active) (source target : Phase) {c : Command}
    (hc : c.toggle? = some active) :
    ((if a.phase = source then { a with gate := { a.gate with active } }.enter target
      else { a with gate := { a.gate with active } }).note (.command c)).Informs o m₀ := by
  obtain ⟨m, hbelieved, hknown, henabled⟩ := h
  have hmark : ∀ b ∈ (Mark.command c).toggle?, m.active ≠ b := by
    rw [show (Mark.command c).toggle? = some active from hc, hknown, hactive]
    rintro b ⟨⟩
    cases active <;> decide
  have hlearn (m : Mirror) : m.learn (.command c) = { m with active } := by
    rw [Mirror.learn, hc, Option.getD_some]
  have hstopped := hbelieved.withGate { a.gate with active }
  split
  · have hnoted := (hstopped.enter hunnamed target).note (.command c) rfl hmark
    rw [hlearn] at hnoted
    refine ⟨_, hnoted, ?_⟩
    show active = (Account.enter _ target).gate.active ∧
      (_ → m.enabled = (Account.enter _ target).gate.enabled)
    rw [enter_gate]
    exact ⟨rfl, henabled⟩
  · have hnoted := hstopped.note (.command c) rfl hmark
    rw [hlearn] at hnoted
    exact ⟨_, hnoted, rfl, henabled⟩

theorem Informs.deed (h : a.Informs o m₀) (hunnamed : a.Unnamed) (ho : o ≠ .call .shutdown)
    (hd : Deed o a b) : b.Informs o m₀ := by
  cases hd with
  | enter => exact h.enter hunnamed _
  | directLaunch | abort => exact (h.enter hunnamed _).enter (unnamed_enter _) _
  | launch _ _ hmark =>
    have hentered := h.enter hunnamed .playerLaunched
    rcases hmark with rfl | rfl
    · obtain ⟨m, hbelieved, hrest⟩ := hentered
      exact ⟨m, hbelieved.note (.launch _) rfl nofun, hrest⟩
    · exact hentered.note_command rfl
  | command hmay => exact h.note_command (toggle?_eq_none_of_mayIssue hmay)
  | startDiscovery _ hactive => exact h.note_toggle hunnamed true hactive .idle .discoverable rfl
  | stopDiscovery hactive => exact h.note_toggle hunnamed false hactive .discoverable .idle rfl
  | switchOn =>
    obtain ⟨m, hbelieved, hactive, -⟩ := h
    exact ⟨_, (hbelieved.withGate _).note (.enabled true) rfl nofun, hactive, fun _ => rfl⟩
  | switchOff hdisables =>
    obtain ⟨m, hbelieved, hactive, -⟩ := h
    exact ⟨m, hbelieved.withGate _, hactive, fun h => absurd hdisables h⟩
  | announceOff hdisables =>
    obtain ⟨m, hbelieved, hactive, -⟩ := h
    exact ⟨_, hbelieved.note (.enabled false) rfl nofun, hactive,
      fun h => absurd hdisables h⟩
  | leave hshutdown | forget hshutdown => exact absurd hshutdown ho

end Account

namespace Machine

variable {m m' : Machine} {o : Occurrence}

/-- An operation is over, and all that it has changed since `m` can be told from the journal. -/
structure Tells (m m' : Machine) : Prop where
  settled : m'.account.Settled
  unnamed : m'.account.Unnamed
  tells : m.account.mirror.Tells m'.account.log m'.account.mirror

/-- Nothing has been said since the journal was last taken. -/
structure Silent (m : Machine) : Prop where
  journal : m.journal = []
  settled : m.account.Settled
  unnamed : m.account.Unnamed

theorem Silent.log (hm : m.Silent) : m.account.log = [] := by
  show m.journal.filterMap Entry.mark? = []
  rw [hm.journal]
  rfl

/-- Without interference, an operation tells all that it has changed but for what is not yet known
of a disabling. -/
theorem Silent.quietly {α : Type} {r : Run α} (hm : m.Silent)
    (hr : r.Completes (conduct.under o) m.account) (ho : o ≠ .call .shutdown) :
    r.quietly.1.account.Settled ∧ r.quietly.1.account.Unnamed ∧
      r.quietly.1.account.Informs o m.account.mirror := by
  have hdeeds := Run.quietly_deeds hr hm.settled
  have hstart : m.account.Informs o m.account.mirror := by
    refine ⟨m.account.mirror, ⟨?_, rfl, rfl⟩, rfl, fun _ => rfl⟩
    rw [hm.log]
    rfl
  have hend : r.quietly.1.account.Unnamed ∧ r.quietly.1.account.Informs o m.account.mirror :=
    hdeeds.keeps (P := fun a => a.Unnamed ∧ a.Informs o m.account.mirror)
      (fun _ _ ha hd => ⟨ha.1.deed hd, ha.2.deed ha.1 ho hd⟩) ⟨hm.unnamed, hstart⟩
  exact ⟨hdeeds.keeps (fun _ _ ha hd => ha.deed hd) hm.settled, hend⟩

theorem Silent.tells {α : Type} {r : Run α} (hm : m.Silent)
    (hr : r.Completes (conduct.under o) m.account) (ho : o ≠ .call .shutdown)
    (henabled : o = .call (.setEnabled false) → ∀ b,
      r.quietly.1.account.Believed m.account.mirror b → b.enabled = r.quietly.1.gate.enabled) :
    m.Tells r.quietly.1 := by
  obtain ⟨hsettled, hunnamed, b, hbelieved, hactive, hknown⟩ := hm.quietly hr ho
  have hsame : b = r.quietly.1.account.mirror := by
    have hb : b.enabled = r.quietly.1.gate.enabled := by
      by_cases hdisables : o = .call (.setEnabled false)
      · exact henabled hdisables b hbelieved
      · exact hknown hdisables
    obtain ⟨phase, id, enabled, active⟩ := b
    obtain ⟨-, rfl, rfl⟩ := hbelieved
    subst hb hactive
    rfl
  exact ⟨hsettled, hunnamed, hsame ▸ hbelieved.tells⟩

/-- A disabling that is not refused is told of at its end. -/
theorem quietly_disable (m : Machine) : m.disable.quietly.1 = m ∨
    ∃ m' : Machine, m.disable.quietly.1 = m'.announceEnabled false ∧
      m'.gate.enabled = false := by
  rw [disable]
  split
  · exact .inl rfl
  · split
    · exact .inl rfl
    · rw [Run.quietly_andThen]
      refine .inr ⟨_, rfl, ?_⟩
      rw [enter_gate]
      show (suspendDiscovery _).quietly.1.gate.enabled = false
      rw [suspendDiscovery_gate]

theorem Silent.perform_tells (hm : m.Silent) {c : Call} (hc : c ≠ .shutdown) :
    m.Tells (m.perform c).quietly.1 := by
  refine hm.tells (perform_deeds hm.settled c) (fun h => hc (Occurrence.call.inj h)) ?_
  intro hdisables b hbelieved
  obtain rfl := Occurrence.call.inj hdisables
  have hrun : (m.perform (.setEnabled false)).quietly.1 = m.disable.quietly.1 :=
    congrArg Prod.fst (Run.quietly_map m.disable Reply.ofOutcome)
  rw [hrun] at hbelieved ⊢
  rcases m.quietly_disable with hsame | ⟨m', hannounced, hdisabled⟩
  · have htells := hbelieved.tells
    rw [hsame, hm.log] at htells
    rw [hsame, ← show m.account.mirror = b from htells]
    rfl
  · have htells := hbelieved.tells.foldl_learn
    rw [hannounced, account_announceEnabled, Account.note, List.foldl_append] at htells
    rw [hannounced, ← htells]
    exact hdisabled.symm

theorem Silent.ring_tells (hm : m.Silent) (a : Timer.Alarm Task) : m.Tells (m.ring a).quietly.1 :=
  hm.tells (o := .alarm a) (ring_deeds .refl a) nofun nofun

end Machine

end CastReceiver
